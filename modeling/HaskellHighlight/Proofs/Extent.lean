import HaskellHighlight.Lexer.Lexeme
import HaskellHighlight.Lexer.Literal

/-! How far runs reach. No part of a lexical unit reaches past the end of the text it is read from. -/
namespace HaskellHighlight.Lexer
open Unicode

theorem runLength_le (p : Char → Bool) (text : List Char) : runLength p text ≤ text.length :=
  (List.takeWhile_sublist p).length_le

theorem runLength_cons_of_pos {p : Char → Bool} {c : Char} {rest : List Char} (h : p c = true) :
    runLength p (c :: rest) = runLength p rest + 1 := by
  rw [runLength, List.takeWhile_cons_of_pos h, List.length_cons, runLength]

theorem runLength_pos {p : Char → Bool} {text : List Char} (h : text.head?.any p = true) :
    0 < runLength p text := by
  cases text with
  | nil => contradiction
  | cons c rest =>
    rw [runLength_cons_of_pos h]
    exact Nat.succ_pos _

theorem take_runLength (p : Char → Bool) (text : List Char) :
    text.take (runLength p text) = text.takeWhile p :=
  (List.prefix_iff_eq_take.mp (List.takeWhile_prefix p)).symm

theorem drop_runLength (p : Char → Bool) (text : List Char) :
    text.drop (runLength p text) = text.dropWhile p := by
  calc
    text.drop (runLength p text) =
        (text.takeWhile p ++ text.dropWhile p).drop (text.takeWhile p).length := by
      rw [List.takeWhile_append_dropWhile, runLength]
    _ = text.dropWhile p := List.drop_left

theorem all_takeWhile (p : Char → Bool) (text : List Char) :
    ∀ c ∈ text.takeWhile p, p c = true := List.all_eq_true.mp List.all_takeWhile

theorem head?_dropWhile {p : Char → Bool} {text : List Char} {c : Char}
    (h : (text.dropWhile p).head? = some c) : p c = false := by
  have behind := List.head?_dropWhile_not p text
  rwa [h] at behind

theorem head?_drop_runLength {p : Char → Bool} {text : List Char} {c : Char}
    (h : (text.drop (runLength p text)).head? = some c) : p c = false := by
  rw [drop_runLength] at h
  exact head?_dropWhile h

theorem takeWhile_append_of_stop {p : Char → Bool} {run more : List Char}
    (h : ∀ d ∈ run, p d = true) (stop : ∀ c, more.head? = some c → p c = false) :
    (run ++ more).takeWhile p = run := by
  have none_behind : more.takeWhile p = [] := by
    cases more with
    | nil => rfl
    | cons c more => exact List.takeWhile_cons_of_neg (by simp [stop c rfl])
  rw [List.takeWhile_append_of_pos h, none_behind, List.append_nil]

theorem takeWhile_of_all {p : Char → Bool} {run : List Char} (h : ∀ d ∈ run, p d = true) :
    run.takeWhile p = run := by
  calc
    run.takeWhile p = (run ++ []).takeWhile p := by rw [List.append_nil]
    _ = run := takeWhile_append_of_stop h (by simp)

theorem runLength_append_of_stop {p : Char → Bool} {run more : List Char}
    (h : ∀ d ∈ run, p d = true) (stop : ∀ c, more.head? = some c → p c = false) :
    runLength p (run ++ more) = run.length := by
  rw [runLength, takeWhile_append_of_stop h stop]

theorem commentTail_le (depth : Nat) (text : List Char) :
    (commentTail depth text).1 ≤ text.length := by
  fun_induction commentTail depth text with
  | case1 => exact Nat.le_refl 0
  | case2 depth rest length state h ih => simp only [h] at ih; simp only [List.length_cons]; omega
  | case3 depth rest h => simp only [List.length_cons]; omega
  | case4 depth rest h length state hs ih =>
    simp only [hs] at ih
    simp only [List.length_cons]
    omega
  | case5 depth c rest _ _ length state hs ih =>
    simp only [hs] at ih
    simp only [List.length_cons]
    omega

theorem stringTail_le (mode : StringMode) (text : List Char) :
    stringTail mode text ≤ text.length := by
  fun_induction stringTail mode text <;> simp only [List.length_cons, List.length_nil] <;> omega

theorem characterTail?_le {text : List Char} {length : Nat}
    (h : characterTail? text = some length) : length ≤ text.length := by
  cases text with
  | nil => simp [characterTail?] at h
  | cons c rest =>
    rw [characterTail?] at h
    generalize (if c = '\\' then 1 + escapeLength rest else 1) = body at h
    simp only [Option.ite_none_left_eq_some, Option.ite_none_right_eq_some,
      Option.some.injEq] at h
    obtain ⟨-, quote, rfl⟩ := h
    obtain ⟨tail, quote⟩ := List.head?_eq_some_iff.mp quote
    have := congrArg List.length quote
    simp only [List.length_drop, List.length_cons] at this ⊢
    omega

theorem fractionLength_le (text : List Char) : fractionLength text ≤ text.length := by
  cases text with
  | nil => exact Nat.le_refl 0
  | cons c rest =>
    have := runLength_le isAsciiDigit rest
    simp only [fractionLength, List.length_cons]
    split <;> omega

theorem exponentLength_le (text : List Char) : exponentLength text ≤ text.length := by
  cases text with
  | nil => exact Nat.le_refl 0
  | cons c rest =>
    rw [exponentLength, List.length_cons]
    generalize (if rest.head? = some '+' || rest.head? = some '-' then 1 else 0) = sign
    have digits := runLength_le isAsciiDigit (rest.drop sign)
    rw [List.length_drop] at digits
    split
    · rename_i h
      simp only [Bool.and_eq_true, decide_eq_true_eq] at h
      omega
    · omega

theorem decimalNumber_le (text : List Char) : (decimalNumber text).2 ≤ text.length := by
  rw [decimalNumber]
  have whole := runLength_le isAsciiDigit text
  generalize runLength isAsciiDigit text = n at whole
  have fraction := fractionLength_le (text.drop n)
  generalize fractionLength (text.drop n) = m at fraction
  have exponent := exponentLength_le (text.drop (n + m))
  rw [List.length_drop] at fraction exponent
  simp only
  omega

theorem decimalNumber_pos {c : Char} (h : isAsciiDigit c = true) (rest : List Char) :
    0 < (decimalNumber (c :: rest)).2 := by
  simp only [decimalNumber, runLength_cons_of_pos h]
  omega

/-- A number with its base mark or without: what its length is, by the form it has. -/
theorem number_cases (text : List Char) :
    number text = decimalNumber text ∨
    (∃ mark rest, text = '0' :: mark :: rest ∧ (mark = 'x' ∨ mark = 'X') ∧
      rest.head?.any isHexDigit = true ∧
      number text = (.hexadecimal, 2 + runLength isHexDigit rest)) ∨
    (∃ mark rest, text = '0' :: mark :: rest ∧ (mark = 'o' ∨ mark = 'O') ∧
      rest.head?.any isOctalDigit = true ∧
      number text = (.octal, 2 + runLength isOctalDigit rest)) := by
  unfold number
  split
  · rename_i mark rest
    split
    · rename_i h
      simp only [Bool.and_eq_true, Bool.or_eq_true, decide_eq_true_eq] at h
      exact Or.inr (Or.inl ⟨mark, rest, rfl, h.1, h.2, rfl⟩)
    · split
      · rename_i h
        simp only [Bool.and_eq_true, Bool.or_eq_true, decide_eq_true_eq] at h
        exact Or.inr (Or.inr ⟨mark, rest, rfl, h.1, h.2, rfl⟩)
      · exact Or.inl rfl
  · exact Or.inl rfl

theorem number_ne_string (text : List Char) : (number text).1 ≠ .string := by
  rcases number_cases text with h | ⟨_, _, -, -, -, h⟩ | ⟨_, _, -, -, -, h⟩
  · rw [h, decimalNumber]
    simp only
    split <;> exact nofun
  · rw [h]
    exact nofun
  · rw [h]
    exact nofun

theorem number_le (text : List Char) : (number text).2 ≤ text.length := by
  rcases number_cases text with h | ⟨mark, rest, rfl, -, -, h⟩ | ⟨mark, rest, rfl, -, -, h⟩
  · rw [h]
    exact decimalNumber_le text
  · have := runLength_le isHexDigit rest
    simp only [h, List.length_cons]
    omega
  · have := runLength_le isOctalDigit rest
    simp only [h, List.length_cons]
    omega

theorem number_pos {c : Char} (h : isAsciiDigit c = true) (rest : List Char) :
    0 < (number (c :: rest)).2 := by
  rcases number_cases (c :: rest) with e | ⟨mark, more, -, -, -, e⟩ | ⟨mark, more, -, -, -, e⟩
  · rw [e]
    exact decimalNumber_pos h rest
  · simp only [e]
    omega
  · simp only [e]
    omega

end HaskellHighlight.Lexer
