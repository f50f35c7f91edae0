import HaskellHighlight.Proofs.Extent

/-! How far the rules of the lexical syntax look ahead. None of them looks past a line break or past
the mark that opens a comment, so that text added after one of these changes nothing before it. -/
namespace HaskellHighlight.Lexer
open Unicode

/-- Whether a text contains a line break or the mark that opens a comment. -/
def hasStop : List Char → Bool
  | [] => false
  | c :: rest => isLineBreak c || (c = '\x7b' && rest.head? = some '-') || hasStop rest

def stopChars : List Char := ['\n', '\r', '\x7b']

section stops
variable {c : Char} {text rest : List Char} {p : Char → Bool}

theorem hasStop_append_left (before : List Char) (h : hasStop text = true) :
    hasStop (before ++ text) = true := by
  induction before with
  | nil => exact h
  | cons c before ih => rw [List.cons_append, hasStop, ih, Bool.or_true]

theorem hasStop_of_drop {n : Nat} (h : hasStop (text.drop n) = true) : hasStop text = true := by
  rw [← List.take_append_drop n text]
  exact hasStop_append_left _ h

theorem hasStop_ne_nil (h : hasStop text = true) : text ≠ [] := by
  rintro rfl
  contradiction

theorem lt_length_of_hasStop_drop {n : Nat} (h : hasStop (text.drop n) = true) :
    n < text.length := by
  have left := List.length_pos_iff.mpr (hasStop_ne_nil h)
  rwa [List.length_drop, Nat.sub_pos_iff_lt] at left

theorem head?_append_of_stop (h : hasStop text = true) (more : List Char) :
    (text ++ more).head? = text.head? := by
  cases text with
  | nil => contradiction
  | cons c rest => rfl

theorem hasStop_cons (h : hasStop (c :: rest) = true) :
    isLineBreak c = true ∨ (c = '\x7b' ∧ ∃ more, rest = '-' :: more) ∨ hasStop rest = true := by
  rw [hasStop, Bool.or_eq_true, Bool.or_eq_true, or_assoc] at h
  refine h.imp_right (Or.imp_left fun mark => ?_)
  simp only [Bool.and_eq_true, decide_eq_true_eq] at mark
  exact ⟨mark.1, List.head?_eq_some_iff.mp mark.2⟩

/-- After a character that is no part of a stop the stop is still to come. -/
theorem hasStop_tail (h : hasStop (c :: rest) = true) (hc : c ∉ stopChars) :
    hasStop rest = true := by
  rcases hasStop_cons h with lineBreak | ⟨rfl, -⟩ | tail
  · simp only [isLineBreak, Bool.or_eq_true, decide_eq_true_eq] at lineBreak
    rcases lineBreak with rfl | rfl <;> exact absurd hc (by decide)
  · exact absurd hc (by decide)
  · exact tail

/-- A run of characters that cannot be in a stop ends before one. -/
theorem exists_of_hasStop (h : hasStop text = true)
    (hp : stopChars.any p = false) : ∃ c ∈ text, p c = false := by
  induction text with
  | nil => contradiction
  | cons c rest ih =>
    by_cases mem : c ∈ stopChars
    · exact ⟨c, List.mem_cons_self, Bool.eq_false_iff.mpr (List.any_eq_false.mp hp c mem)⟩
    · obtain ⟨d, later, hd⟩ := ih (hasStop_tail h mem)
      exact ⟨d, List.mem_cons_of_mem _ later, hd⟩

end stops

section append
variable {p : Char → Bool} {text : List Char}

theorem takeWhile_append_of_exists (h : ∃ c ∈ text, p c = false) (more : List Char) :
    (text ++ more).takeWhile p = text.takeWhile p := by
  obtain ⟨c, mem, hc⟩ := h
  rw [List.takeWhile_append, if_neg]
  intro whole
  have := List.all_takeWhile (p := p) (l := text)
  rw [(List.takeWhile_prefix p).eq_of_length whole] at this
  exact Bool.false_ne_true (hc.symm.trans (List.all_eq_true.mp this c mem))

theorem runLength_append (h : ∃ c ∈ text, p c = false) (more : List Char) :
    runLength p (text ++ more) = runLength p text := by
  rw [runLength, takeWhile_append_of_exists h more, runLength]

theorem runLength_lt_iff : runLength p text < text.length ↔ ∃ c ∈ text, p c = false := by
  induction text with
  | nil => simp [runLength]
  | cons c rest ih =>
    cases hc : p c with
    | false => simp [runLength, hc]
    | true => simp [runLength_cons_of_pos hc, ih, hc]

/-- A run that something follows is the same whatever is added to the text. -/
theorem takeWhile_append_of_lt (h : runLength p text < text.length) (more : List Char) :
    (text ++ more).takeWhile p = text.takeWhile p :=
  takeWhile_append_of_exists (runLength_lt_iff.mp h) more

theorem runLength_append_of_lt (h : runLength p text < text.length) (more : List Char) :
    runLength p (text ++ more) = runLength p text :=
  runLength_append (runLength_lt_iff.mp h) more

/-- A string literal that ends before the text does is closed. -/
theorem stringTail_append (mode : StringMode) (more : List Char)
    (h : stringTail mode text < text.length) :
    stringTail mode (text ++ more) = stringTail mode text := by
  fun_induction stringTail mode text with
  | case1 => contradiction
  | case2 | case3 | case10 | case11 | case14 =>
    simp only [List.cons_append, stringTail, *, if_true, if_false, Bool.false_eq_true]
  | _ =>
    rename_i ih
    have shorter := ih (by rw [List.length_cons] at h; omega)
    simp only [List.cons_append, stringTail, *, if_true, if_false, Bool.false_eq_true]

theorem escapeLength_append (h : hasStop text = true) (more : List Char) :
    escapeLength (text ++ more) = escapeLength text ∧ escapeLength text < text.length := by
  cases text with
  | nil => contradiction
  | cons c rest =>
    rw [List.cons_append, escapeLength, escapeLength, List.length_cons]
    cases lineBreak : isLineBreak c with
    | true =>
      have other : c ≠ '^' := by rintro rfl; exact absurd lineBreak (by decide)
      simp [other]
    | false =>
      have run : ∃ d ∈ rest, isAsciiAlphanumeric d = false := by
        rcases hasStop_cons h with h | ⟨-, tail, rfl⟩ | h
        · exact absurd (lineBreak.symm.trans h) Bool.false_ne_true
        · exact ⟨'-', List.mem_cons_self, by decide⟩
        · exact exists_of_hasStop h (by decide)
      have same := runLength_append run more
      have shorter := runLength_lt_iff.mpr run
      cases rest with
      | nil => simp at run
      | cons d tail =>
        by_cases control : c = '^' ∧ isControlName d = true
        · obtain ⟨rfl, name⟩ := control
          have unnamed : stopChars.any isControlName = false := by decide
          have other : d ∉ stopChars := fun mem => List.any_eq_false.mp unnamed d mem name
          have tail_stop := hasStop_tail (hasStop_tail h (by decide)) other
          have := List.length_pos_iff.mpr (hasStop_ne_nil tail_stop)
          simp only [List.cons_append, List.head?_cons, Option.any_some, name, decide_true,
            Bool.and_true, if_true, List.length_cons, true_and]
          omega
        · have other : (c = '^' && isControlName d) = false := by simpa using control
          rw [List.cons_append] at same
          simp only [List.cons_append, List.head?_cons, Option.any_some, other, same,
            Bool.false_eq_true, if_false, true_and]
          omega

private theorem head?_drop_append {n : Nat} (h : n < text.length) (more : List Char) :
    ((text ++ more).drop n).head? = (text.drop n).head? := by
  rw [List.head?_drop, List.head?_drop, List.getElem?_append_left h]

/-- Whether a quote opens a character literal, and how long that is, is settled before a stop. -/
theorem characterTail?_append (h : hasStop text = true) (more : List Char) :
    characterTail? (text ++ more) = characterTail? text := by
  cases text with
  | nil => contradiction
  | cons c rest =>
    rw [List.cons_append, characterTail?, characterTail?]
    by_cases none_open : (c = '\'' || isLineBreak c) = true
    · rw [if_pos none_open, if_pos none_open]
    rw [if_neg none_open, if_neg none_open]
    rw [Bool.or_eq_true, not_or] at none_open
    by_cases escape : c = '\\'
    · obtain ⟨same, shorter⟩ := escapeLength_append (hasStop_tail h (by rw [escape]; decide)) more
      have inside : 1 + escapeLength rest < (c :: rest).length := by
        rw [List.length_cons]
        omega
      simp only [if_pos escape, same, ← List.cons_append, head?_drop_append inside]
    · have follows : rest ≠ [] := by
        rcases hasStop_cons h with h | ⟨-, tail, rfl⟩ | h
        · exact absurd h none_open.2
        · exact List.cons_ne_nil _ _
        · exact hasStop_ne_nil h
      have inside : 1 < (c :: rest).length :=
        Nat.succ_lt_succ (List.length_pos_iff.mpr follows)
      simp only [if_neg escape, ← List.cons_append, head?_drop_append inside]

theorem fractionLength_append (h : hasStop text = true) (more : List Char) :
    fractionLength (text ++ more) = fractionLength text := by
  cases text with
  | nil => contradiction
  | cons c rest =>
    simp only [List.cons_append, fractionLength]
    by_cases point : c = '.'
    · have digits := exists_of_hasStop (p := isAsciiDigit)
        (hasStop_tail h (by rw [point]; decide)) (by decide)
      rw [runLength_append digits]
    · simp [point]

private theorem hasStop_after_sign (h : hasStop text = true) :
    hasStop (text.drop (if text.head? = some '+' || text.head? = some '-' then 1 else 0)) =
      true := by
  split
  · rename_i sign
    cases text with
    | nil => contradiction
    | cons c rest =>
      apply hasStop_tail h
      simp only [List.head?_cons, Option.some.injEq, Bool.or_eq_true, decide_eq_true_eq] at sign
      rcases sign with rfl | rfl <;> decide
  · exact h

theorem exponentLength_append (h : hasStop text = true) (more : List Char) :
    exponentLength (text ++ more) = exponentLength text := by
  cases text with
  | nil => contradiction
  | cons c rest =>
    simp only [List.cons_append, exponentLength]
    by_cases mark : (c = 'e' || c = 'E') = true
    · have stop : hasStop rest = true := by
        apply hasStop_tail h
        simp only [Bool.or_eq_true, decide_eq_true_eq] at mark
        rcases mark with rfl | rfl <;> decide
      have digits := hasStop_after_sign stop
      rw [head?_append_of_stop stop,
        List.drop_append_of_le_length (Nat.le_of_lt (lt_length_of_hasStop_drop digits)),
        runLength_append (exists_of_hasStop digits (by decide))]
    · simp [mark]

theorem decimalNumber_append (h : hasStop (text.drop (decimalNumber text).2) = true)
    (more : List Char) : decimalNumber (text ++ more) = decimalNumber text := by
  have total := lt_length_of_hasStop_drop h
  simp only [decimalNumber] at h total ⊢
  have inside : runLength isAsciiDigit text < text.length := by omega
  rw [← List.drop_drop] at h
  have exponent := hasStop_of_drop h
  rw [← List.drop_drop] at exponent
  have fraction := hasStop_of_drop exponent
  rw [runLength_append_of_lt inside, List.drop_append_of_le_length (Nat.le_of_lt inside),
    fractionLength_append fraction, List.drop_append_of_le_length (by omega),
    exponentLength_append (by rwa [← List.drop_drop])]

/-- A number whose second character is no base mark is a decimal number. -/
theorem number_decimal
    (h : ∀ mark rest, text = '0' :: mark :: rest → mark ∉ ['x', 'X', 'o', 'O']) :
    number text = decimalNumber text := by
  unfold number
  split
  · rename_i mark rest
    have plain := h mark rest rfl
    simp only [List.mem_cons, List.not_mem_nil, or_false, not_or] at plain
    simp [plain]
  · rfl

theorem number_based (mark d : Char) (tail : List Char) :
    number ('0' :: mark :: d :: tail) =
      if (mark = 'x' || mark = 'X') && isHexDigit d then
        (.hexadecimal, 2 + runLength isHexDigit (d :: tail))
      else if (mark = 'o' || mark = 'O') && isOctalDigit d then
        (.octal, 2 + runLength isOctalDigit (d :: tail))
      else decimalNumber ('0' :: mark :: d :: tail) := rfl

private theorem runLength_append_of_based {p : Char → Bool} {mark d : Char} {tail : List Char}
    (h : hasStop (('0' :: mark :: d :: tail).drop (2 + runLength p (d :: tail))) = true)
    (more : List Char) : runLength p (d :: (tail ++ more)) = runLength p (d :: tail) := by
  have total := lt_length_of_hasStop_drop h
  rw [List.length_cons, List.length_cons] at total
  have shorter : runLength p (d :: tail) < (d :: tail).length := by omega
  exact runLength_append_of_lt shorter more

/-- A number that a stop follows has all its digits before it. -/
theorem number_append (h : hasStop (text.drop (number text).2) = true) (more : List Char) :
    number (text ++ more) = number text := by
  by_cases based : ∃ mark d tail, text = '0' :: mark :: d :: tail
  · obtain ⟨mark, d, tail, rfl⟩ := based
    rw [number_based] at h ⊢
    rw [List.cons_append, List.cons_append, List.cons_append, number_based]
    by_cases hexadecimal : ((mark = 'x' || mark = 'X') && isHexDigit d) = true
    · rw [if_pos hexadecimal] at h ⊢
      rw [if_pos hexadecimal, runLength_append_of_based h]
    rw [if_neg hexadecimal] at h ⊢
    rw [if_neg hexadecimal]
    by_cases octal : ((mark = 'o' || mark = 'O') && isOctalDigit d) = true
    · rw [if_pos octal] at h ⊢
      rw [if_pos octal, runLength_append_of_based h]
    rw [if_neg octal] at h ⊢
    rw [if_neg octal]
    exact decimalNumber_append h more
  · have plain (mark : Char) (rest more : List Char)
        (start : text ++ more = '0' :: mark :: rest) : mark ∉ ['x', 'X', 'o', 'O'] := by
      intro mem
      match text with
      | [] => contradiction
      | [c] =>
        obtain ⟨rfl, -⟩ := List.cons.inj start
        exact absurd h (by decide)
      | [c, d] =>
        obtain ⟨rfl, same⟩ := List.cons.inj start
        obtain ⟨rfl, -⟩ := List.cons.inj same
        have unstopped : (['x', 'X', 'o', 'O'].any fun d =>
            hasStop (['0', d].drop (number ['0', d]).2)) = false := by decide
        exact List.any_eq_false.mp unstopped d mem h
      | c :: d :: e :: tail =>
        obtain ⟨rfl, -⟩ := List.cons.inj start
        exact based ⟨d, e, tail, rfl⟩
    have decimal : number text = decimalNumber text :=
      number_decimal fun mark rest start => plain mark rest [] (by rw [List.append_nil, start])
    rw [decimal] at h ⊢
    rw [number_decimal fun mark rest start => plain mark rest more start]
    exact decimalNumber_append h more

end append

end HaskellHighlight.Lexer
