import HaskellHighlight.Proofs.Cutoff

/-! Numbers by their grammar. The number at the front of a text is the longest part of the text that
the grammar knows as a number, in any of its forms. -/
namespace HaskellHighlight.Lexer
open Unicode

/-- A run of digits, at least one of them. -/
structure IsDigitRun (p : Char → Bool) (run : List Char) : Prop where
  nonempty : run ≠ []
  digits : ∀ d ∈ run, p d = true

/-- A mark, a sign or none, and digits. -/
inductive IsExponent : List Char → Prop where
  | intro {mark : Char} {sign digits : List Char} (letter : mark = 'e' ∨ mark = 'E')
      (signed : sign = [] ∨ sign = ['+'] ∨ sign = ['-'])
      (run : IsDigitRun isAsciiDigit digits) : IsExponent (mark :: (sign ++ digits))

/-- `Numeral form text` says that `text` is written as a number of the form. -/
inductive Numeral : LiteralForm → List Char → Prop where
  | hexadecimal {mark : Char} {digits : List Char} (base : mark = 'x' ∨ mark = 'X')
      (run : IsDigitRun isHexDigit digits) : Numeral .hexadecimal ('0' :: mark :: digits)
  | octal {mark : Char} {digits : List Char} (base : mark = 'o' ∨ mark = 'O')
      (run : IsDigitRun isOctalDigit digits) : Numeral .octal ('0' :: mark :: digits)
  | decimal {whole : List Char} (run : IsDigitRun isAsciiDigit whole) : Numeral .decimal whole
  | fraction {whole digits exponent : List Char} (run : IsDigitRun isAsciiDigit whole)
      (part : IsDigitRun isAsciiDigit digits) (power : exponent = [] ∨ IsExponent exponent) :
      Numeral .float (whole ++ '.' :: (digits ++ exponent))
  | exponent {whole exponent : List Char} (run : IsDigitRun isAsciiDigit whole)
      (power : IsExponent exponent) : Numeral .float (whole ++ exponent)

namespace IsDigitRun
variable {p : Char → Bool} {run rest more : List Char}

theorem takeWhile (h : 0 < runLength p rest) : IsDigitRun p (rest.takeWhile p) :=
  ⟨List.ne_nil_of_length_pos h, all_takeWhile p rest⟩

theorem runLength_eq (h : IsDigitRun p run) : runLength p run = run.length := by
  calc
    runLength p run = runLength p (run ++ []) := by rw [List.append_nil]
    _ = run.length := runLength_append_of_stop h.digits nofun

theorem head (h : IsDigitRun p run) : ∃ d more, run = d :: more ∧ p d = true := by
  obtain ⟨d, more, rfl⟩ := List.exists_cons_of_ne_nil h.nonempty
  exact ⟨d, more, rfl, h.digits d List.mem_cons_self⟩

end IsDigitRun

/-- The fraction in front of a text, with all its digits, if there is one. -/
theorem fractionLength_cases (text : List Char) :
    fractionLength text = 0 ∨ ∃ digits more, text = '.' :: (digits ++ more) ∧
      IsDigitRun isAsciiDigit digits ∧ ∀ c, more.head? = some c → isAsciiDigit c = false := by
  cases text with
  | nil => exact Or.inl rfl
  | cons c rest =>
    rw [fractionLength]
    split
    · rename_i point
      simp only [Bool.and_eq_true, decide_eq_true_eq] at point
      obtain ⟨rfl, some_digit⟩ := point
      exact Or.inr ⟨_, _, by rw [List.takeWhile_append_dropWhile],
        .takeWhile (Nat.pos_of_ne_zero some_digit), fun _ => head?_dropWhile⟩
    · exact Or.inl rfl

theorem fractionLength_digits {digits more : List Char} (run : IsDigitRun isAsciiDigit digits)
    (stop : ∀ c, more.head? = some c → isAsciiDigit c = false) :
    fractionLength ('.' :: (digits ++ more)) = 1 + digits.length := by
  have some_digit : (true && digits.length ≠ 0) = true := by simpa using run.nonempty
  rw [fractionLength, runLength_append_of_stop run.digits stop]
  exact if_pos some_digit

theorem fractionLength_eq_zero {text : List Char} (h : text.head? ≠ some '.') :
    fractionLength text = 0 := by
  rcases fractionLength_cases text with none_there | ⟨digits, more, rfl, -⟩
  · exact none_there
  · exact absurd rfl h

private theorem take_signLength (text : List Char) :
    (text.take (signLength text)).length = signLength text ∧
      (text.take (signLength text) = [] ∨ text.take (signLength text) = ['+'] ∨
        text.take (signLength text) = ['-']) := by
  rw [signLength]
  split
  · rename_i sign
    simp only [Bool.or_eq_true, decide_eq_true_eq] at sign
    rcases sign with head | head
    · obtain ⟨more, rfl⟩ := List.head?_eq_some_iff.mp head
      exact ⟨rfl, Or.inr (Or.inl rfl)⟩
    · obtain ⟨more, rfl⟩ := List.head?_eq_some_iff.mp head
      exact ⟨rfl, Or.inr (Or.inr rfl)⟩
  · exact ⟨rfl, Or.inl rfl⟩

/-- The exponent in front of a text, if there is one. -/
theorem exponentLength_cases (text : List Char) :
    exponentLength text = 0 ∨ ∃ exponent more, text = exponent ++ more ∧ IsExponent exponent ∧
      exponentLength text = exponent.length := by
  cases text with
  | nil => exact Or.inl rfl
  | cons c rest =>
    rw [exponentLength_cons]
    split
    · rename_i mark
      simp only [Bool.and_eq_true, Bool.or_eq_true, decide_eq_true_eq] at mark
      obtain ⟨length, signed⟩ := take_signLength rest
      refine Or.inr ⟨_, (rest.drop (signLength rest)).dropWhile isAsciiDigit, ?_,
        .intro mark.1 signed (.takeWhile (Nat.pos_of_ne_zero mark.2)), ?_⟩
      · rw [List.cons_append, List.append_assoc, List.takeWhile_append_dropWhile,
          List.take_append_drop]
      · rw [List.length_cons, List.length_append, length, exponentDigits, runLength]
        omega
    · exact Or.inl rfl

private theorem signLength_append {sign digits : List Char}
    (signed : sign = [] ∨ sign = ['+'] ∨ sign = ['-']) (run : IsDigitRun isAsciiDigit digits) :
    signLength (sign ++ digits) = sign.length := by
  rcases signed with rfl | rfl | rfl
  · obtain ⟨d, more, rfl, digit⟩ := run.head
    have plus : d ≠ '+' := by rintro rfl; exact absurd digit (by decide)
    have minus : d ≠ '-' := by rintro rfl; exact absurd digit (by decide)
    simp [signLength, plus, minus]
  · rfl
  · rfl

/-- An exponent by itself is read to its end. -/
theorem IsExponent.exponentLength_eq {exponent : List Char} (h : IsExponent exponent) :
    exponentLength exponent = exponent.length := by
  obtain ⟨letter, signed, run⟩ := h
  rename_i mark sign digits
  have reach : exponentDigits (sign ++ digits) = digits.length := by
    rw [exponentDigits, signLength_append signed run, List.drop_left, run.runLength_eq]
  have found : ((mark = 'e' || mark = 'E') && digits.length ≠ 0) = true := by
    simpa using ⟨letter, run.nonempty⟩
  rw [exponentLength_cons, signLength_append signed run, reach, if_pos found, List.length_cons,
    List.length_append]
  omega

theorem IsExponent.head {exponent : List Char} (h : IsExponent exponent) {c : Char}
    (head : exponent.head? = some c) : c = 'e' ∨ c = 'E' := by
  obtain ⟨letter, -, -⟩ := h
  obtain rfl := Option.some.inj head
  exact letter

theorem IsExponent.head_not_digit {exponent : List Char} (h : IsExponent exponent) {c : Char}
    (head : exponent.head? = some c) : isAsciiDigit c = false := by
  rcases h.head head with rfl | rfl <;> decide

theorem IsExponent.length_ne_zero {exponent : List Char} (h : IsExponent exponent) :
    exponent.length ≠ 0 := by
  obtain ⟨-, -, -⟩ := h
  exact Nat.succ_ne_zero _

section decimal
variable {whole digits tail : List Char}

/-- A number without a fraction is whole digits and an exponent, if there is one. -/
theorem decimalNumber_whole (run : IsDigitRun isAsciiDigit whole)
    (stop : ∀ c, tail.head? = some c → isAsciiDigit c = false) (whole_only : fractionLength tail = 0) :
    decimalNumber (whole ++ tail) =
      (if exponentLength tail = 0 then .decimal else .float, whole.length + exponentLength tail) := by
  rw [decimalNumber, runLength_append_of_stop run.digits stop, List.drop_left, whole_only,
    Nat.add_zero, List.drop_left]
  simp only [decide_true, Bool.true_and, decide_eq_true_eq]

/-- A number with a fraction is a float, with an exponent or without. -/
theorem decimalNumber_fraction (run : IsDigitRun isAsciiDigit whole)
    (part : IsDigitRun isAsciiDigit digits)
    (stop : ∀ c, tail.head? = some c → isAsciiDigit c = false) :
    decimalNumber (whole ++ '.' :: (digits ++ tail)) =
      (.float, whole.length + (1 + digits.length) + exponentLength tail) := by
  have point (c : Char) (head : ('.' :: (digits ++ tail)).head? = some c) :
      isAsciiDigit c = false := by
    obtain rfl := Option.some.inj head
    decide
  have behind : ('.' :: (digits ++ tail)).drop (1 + digits.length) = tail := by
    rw [Nat.one_add, List.drop_succ_cons, List.drop_left]
  have some_fraction : 1 + digits.length ≠ 0 := by omega
  rw [decimalNumber, runLength_append_of_stop run.digits point, List.drop_left,
    fractionLength_digits part stop, ← List.drop_drop, List.drop_left, behind]
  simp only [some_fraction, decide_false, Bool.false_and, Bool.false_eq_true, if_false]

/-- A number that goes on with no base mark behind its first digits is a decimal number. -/
theorem number_append_whole (run : IsDigitRun isAsciiDigit whole)
    (plain : ∀ c, tail.head? = some c → c ∉ ['x', 'X', 'o', 'O']) :
    number (whole ++ tail) = decimalNumber (whole ++ tail) := by
  obtain ⟨d, more, rfl, -⟩ := run.head
  apply number_decimal
  intro mark rest start
  obtain ⟨-, start⟩ := List.cons.inj start
  cases more with
  | nil =>
    have start : tail = mark :: rest := start
    exact plain mark (by rw [start]; rfl)
  | cons e more =>
    obtain ⟨rfl, -⟩ := List.cons.inj start
    have digit : isAsciiDigit e = true := run.digits e (by simp)
    have letters : (['x', 'X', 'o', 'O'].any isAsciiDigit) = false := by decide
    exact fun mem => List.any_eq_false.mp letters e mem digit

end decimal

private theorem number_exponent {whole exponent : List Char} (run : IsDigitRun isAsciiDigit whole)
    (power : IsExponent exponent) :
    number (whole ++ exponent) = (.float, (whole ++ exponent).length) := by
  have plain (c : Char) (head : exponent.head? = some c) : c ∉ ['x', 'X', 'o', 'O'] := by
    rcases power.head head with rfl | rfl <;> decide
  have no_fraction : fractionLength exponent = 0 := by
    apply fractionLength_eq_zero
    intro point
    rcases power.head point with same | same <;> exact absurd same (by decide)
  rw [number_append_whole run plain,
    decimalNumber_whole run (fun _ => power.head_not_digit) no_fraction, power.exponentLength_eq,
    if_neg power.length_ne_zero, List.length_append]

private theorem number_fraction {whole digits exponent : List Char}
    (run : IsDigitRun isAsciiDigit whole) (part : IsDigitRun isAsciiDigit digits)
    (power : exponent = [] ∨ IsExponent exponent) :
    number (whole ++ '.' :: (digits ++ exponent)) =
      (.float, (whole ++ '.' :: (digits ++ exponent)).length) := by
  have plain (c : Char) (head : ('.' :: (digits ++ exponent)).head? = some c) :
      c ∉ ['x', 'X', 'o', 'O'] := by
    obtain rfl := Option.some.inj head
    decide
  have stop (c : Char) (head : exponent.head? = some c) : isAsciiDigit c = false := by
    rcases power with rfl | power
    · contradiction
    · exact power.head_not_digit head
  have reach : exponentLength exponent = exponent.length := by
    rcases power with rfl | power
    · rfl
    · exact power.exponentLength_eq
  rw [number_append_whole run plain, decimalNumber_fraction run part stop, reach,
    List.length_append, List.length_cons, List.length_append]
  congr 1
  omega

/-- A number by itself is read to its end and in its form. -/
theorem Numeral.number_eq {form : LiteralForm} {text : List Char} (h : Numeral form text) :
    number text = (form, text.length) := by
  cases h with
  | @hexadecimal mark digits base run =>
    obtain ⟨d, more, rfl, digit⟩ := run.head
    have marked : ((mark = 'x' || mark = 'X') && isHexDigit d) = true := by simp [base, digit]
    rw [number_based, if_pos marked, run.runLength_eq, Nat.add_comm]
    rfl
  | @octal mark digits base run =>
    obtain ⟨d, more, rfl, digit⟩ := run.head
    have other : ((mark = 'x' || mark = 'X') && isHexDigit d) = false := by
      rcases base with rfl | rfl <;> rfl
    have marked : ((mark = 'o' || mark = 'O') && isOctalDigit d) = true := by simp [base, digit]
    rw [number_based, other, if_neg Bool.false_ne_true, if_pos marked, run.runLength_eq,
      Nat.add_comm]
    rfl
  | decimal run =>
    calc
      number text = number (text ++ []) := by rw [List.append_nil]
      _ = decimalNumber (text ++ []) := number_append_whole run nofun
      _ = (.decimal, text.length) := decimalNumber_whole run nofun rfl
  | fraction run part power => exact number_fraction run part power
  | exponent run power => exact number_exponent run power

private theorem numeral_decimalNumber {c : Char} (digit : isAsciiDigit c = true)
    (rest : List Char) :
    ∃ numeral after, c :: rest = numeral ++ after ∧
      Numeral (decimalNumber (c :: rest)).1 numeral ∧
      (decimalNumber (c :: rest)).2 = numeral.length := by
  have run : IsDigitRun isAsciiDigit ((c :: rest).takeWhile isAsciiDigit) :=
    .takeWhile (runLength_pos digit)
  have stop (d : Char) (head : ((c :: rest).dropWhile isAsciiDigit).head? = some d) :
      isAsciiDigit d = false := head?_dropWhile head
  rw [← List.takeWhile_append_dropWhile (p := isAsciiDigit) (l := c :: rest)]
  generalize (c :: rest).takeWhile isAsciiDigit = whole at run
  generalize (c :: rest).dropWhile isAsciiDigit = tail at stop
  rcases fractionLength_cases tail with no_fraction | ⟨digits, more, rfl, part, stop'⟩
  · rw [decimalNumber_whole run stop no_fraction]
    rcases exponentLength_cases tail with no_power | ⟨exponent, after, rfl, power, length⟩
    · rw [no_power]
      exact ⟨whole, tail, rfl, .decimal run, rfl⟩
    · rw [length, if_neg power.length_ne_zero]
      exact ⟨whole ++ exponent, after, (List.append_assoc ..).symm, .exponent run power,
        (List.length_append).symm⟩
  · rw [decimalNumber_fraction run part stop']
    rcases exponentLength_cases more with no_power | ⟨exponent, after, rfl, power, length⟩
    · rw [no_power]
      refine ⟨_, more, ?_, .fraction run part (Or.inl rfl), ?_⟩
      · simp
      · simp; omega
    · rw [length]
      refine ⟨_, after, ?_, .fraction run part (Or.inr power), ?_⟩
      · simp
      · simp; omega

/-- What is read in front of a text that starts with a digit is a number. -/
theorem numeral_number {c : Char} (digit : isAsciiDigit c = true) (rest : List Char) :
    ∃ numeral after, c :: rest = numeral ++ after ∧
      Numeral (number (c :: rest)).1 numeral ∧ (number (c :: rest)).2 = numeral.length := by
  have split (p : Char → Bool) (mark : Char) (more : List Char) :
      '0' :: mark :: more = '0' :: mark :: more.takeWhile p ++ more.dropWhile p := by
    rw [List.cons_append, List.cons_append, List.takeWhile_append_dropWhile]
  rcases number_cases (c :: rest) with read | ⟨mark, more, text, base, head, read⟩ |
    ⟨mark, more, text, base, head, read⟩
  · rw [read]
    exact numeral_decimalNumber digit rest
  · rw [read, text]
    exact ⟨_, _, split isHexDigit mark more, .hexadecimal base (.takeWhile (runLength_pos head)),
      Nat.add_comm ..⟩
  · rw [read, text]
    exact ⟨_, _, split isOctalDigit mark more, .octal base (.takeWhile (runLength_pos head)),
      Nat.add_comm ..⟩

/-- No number in front of a text is longer than what is read there. -/
theorem Numeral.length_le {form : LiteralForm} {numeral text : List Char}
    (h : Numeral form numeral) (front : numeral <+: text) :
    numeral.length ≤ (number text).2 := by
  obtain ⟨more, rfl⟩ := front
  apply Nat.le_of_not_lt
  intro shorter
  have same := number_cut (Nat.le_of_lt shorter)
  rw [← same, h.number_eq] at shorter
  exact Nat.lt_irrefl _ shorter

/-- `LongestNumeral text form numeral` says that `numeral` stands in front of `text`, that it is a
number of the form, and that no number in front of `text` is longer. -/
structure LongestNumeral (text : List Char) (form : LiteralForm) (numeral : List Char) : Prop where
  front : numeral <+: text
  shape : Numeral form numeral
  longest : ∀ other longer, Numeral other longer → longer <+: text →
    longer.length ≤ numeral.length

/-- A text has one longest number in front, and that has one form. -/
theorem LongestNumeral.unique {text numeral numeral' : List Char} {form form' : LiteralForm}
    (h : LongestNumeral text form numeral) (h' : LongestNumeral text form' numeral') :
    form = form' ∧ numeral = numeral' := by
  have le := h.longest _ _ h'.shape h'.front
  have ge := h'.longest _ _ h.shape h.front
  obtain rfl : numeral = numeral' :=
    (List.prefix_of_prefix_length_le h.front h'.front ge).eq_of_length_le le
  have same : (form, numeral.length) = (form', numeral.length) :=
    h.shape.number_eq.symm.trans h'.shape.number_eq
  exact ⟨congrArg Prod.fst same, rfl⟩

/-- Where a document starts with a digit, its first token is the longest number in front, and has
the one form that this number is written in. -/
theorem number_token {c : Char} (digit : isAsciiDigit c = true) (rest : List Char) :
    ∃ form numeral after, c :: rest = numeral ++ after ∧
      LongestNumeral (c :: rest) form numeral ∧
      (∀ other longest, LongestNumeral (c :: rest) other longest →
        other = form ∧ longest = numeral) ∧
      FirstToken (.literal form) numeral after := by
  obtain ⟨numeral, after, text, shape, reach⟩ := numeral_number digit rest
  have munch : LongestNumeral (c :: rest) (number (c :: rest)).1 numeral := by
    refine ⟨⟨after, text.symm⟩, shape, ?_⟩
    intro other longer shape' front
    rw [← reach]
    exact shape'.length_le front
  have unit := Dispatch.number digit rest
  rw [reach] at unit
  exact ⟨_, numeral, after, text, munch, fun other longest munch' => munch'.unique munch,
    firstToken_of_dispatch unit text⟩

theorem number_token_of_bare_exponent :
    isAsciiDigit '1' = true ∧ ∃ form numeral after, "1e+x".toList = numeral ++ after ∧
      LongestNumeral "1e+x".toList form numeral ∧
      (∀ other longest, LongestNumeral "1e+x".toList other longest →
        other = form ∧ longest = numeral) ∧
      FirstToken (.literal form) numeral after :=
  ⟨by decide, number_token (by decide) "e+x".toList⟩

example : tokens "1e+x".toList = [⟨.literal .decimal, ⟨0, 1⟩⟩, ⟨.name .varId, ⟨1, 2⟩⟩,
    ⟨.name .varSym, ⟨2, 3⟩⟩, ⟨.name .varId, ⟨3, 4⟩⟩] := by decide +kernel

end HaskellHighlight.Lexer
