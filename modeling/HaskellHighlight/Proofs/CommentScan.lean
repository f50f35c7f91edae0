import HaskellHighlight.Proofs.Extent

/-! The scan of a nested comment, cut in two. A scan that was interrupted by the end of a text goes
on with the next text as if there had been no end, unless the two characters of a mark were torn
apart. -/
namespace HaskellHighlight.Lexer

def isMark (c : Char) (following : List Char) : Bool :=
  (c = '\x7b' && following.head? = some '-') || (c = '-' && following.head? = some '\x7d')

/-- Whether a cut between two parts of a comment tears a mark apart that the scan from the front
of the first part would meet there. The scan passes both characters of a mark at once, so that the
second of them is not taken for the first one of another mark. -/
def splitsMark (before after : List Char) : Bool :=
  match before with
  | [] => false
  | [c] => isMark c after
  | c :: d :: rest =>
    if isMark c (d :: rest) then splitsMark rest after else splitsMark (d :: rest) after

theorem isMark_iff {c : Char} {following : List Char} :
    isMark c following = true ↔ ∃ more, c = '\x7b' ∧ following = '-' :: more ∨
      c = '-' ∧ following = '\x7d' :: more := by
  simp only [isMark, Bool.or_eq_true, Bool.and_eq_true, decide_eq_true_eq,
    List.head?_eq_some_iff, exists_or, exists_and_left]

/-- What follows a cut matters for a torn mark by its first character only. -/
theorem splitsMark_congr (before : List Char) {after later : List Char}
    (h : after.head? = later.head?) : splitsMark before after = splitsMark before later := by
  fun_induction splitsMark before after with
  | case1 => rfl
  | case2 c => rw [splitsMark, isMark, isMark, h]
  | case3 c d rest mark ih => rw [splitsMark, if_pos mark, ih]
  | case4 c d rest plain ih => rw [splitsMark, if_neg plain, ih]

theorem splitsMark_lineBreak {c : Char} (h : isLineBreak c = true) (before after : List Char) :
    splitsMark (before ++ [c]) after = false := by
  have not_first (following : List Char) : isMark c following = false := by
    rw [Bool.eq_false_iff, ne_eq, isMark_iff]
    rintro ⟨more, ⟨rfl, -⟩ | ⟨rfl, -⟩⟩ <;> exact absurd h (by decide)
  have not_second (d : Char) : isMark d [c] = false := by
    rw [Bool.eq_false_iff, ne_eq, isMark_iff]
    rintro ⟨more, ⟨-, same⟩ | ⟨-, same⟩⟩ <;> obtain ⟨rfl, -⟩ := List.cons.inj same <;>
      exact absurd h (by decide)
  fun_induction splitsMark before after with
  | case1 => rw [List.nil_append, splitsMark, not_first]
  | case2 d =>
    rw [List.singleton_append, splitsMark, not_second, if_neg Bool.false_ne_true, splitsMark,
      not_first]
  | case3 d e rest mark ih =>
    have same : isMark d (e :: (rest ++ [c])) = isMark d (e :: rest) := rfl
    rw [List.cons_append, List.cons_append, splitsMark, same, if_pos mark, ih]
  | case4 d e rest plain ih =>
    have same : isMark d (e :: (rest ++ [c])) = isMark d (e :: rest) := rfl
    rw [List.cons_append, List.cons_append, splitsMark, same, if_neg plain, ← List.cons_append, ih]

theorem commentTail_opening (depth : Nat) (rest : List Char) :
    commentTail depth ('\x7b' :: '-' :: rest) =
      ((commentTail (depth + 1) rest).1 + 2, (commentTail (depth + 1) rest).2) := by
  rw [commentTail]

theorem commentTail_closing (depth : Nat) (rest : List Char) :
    commentTail depth ('-' :: '\x7d' :: rest) =
      if depth ≤ 1 then (2, .initial)
      else ((commentTail (depth - 1) rest).1 + 2, (commentTail (depth - 1) rest).2) := by
  rw [commentTail]

theorem commentTail_plain {c : Char} {rest : List Char} (h : isMark c rest = false)
    (depth : Nat) : commentTail depth (c :: rest) =
      ((commentTail depth rest).1 + 1, (commentTail depth rest).2) := by
  rw [Bool.eq_false_iff, ne_eq, isMark_iff] at h
  rw [commentTail]
  · exact fun more opening dash => h ⟨more, Or.inl ⟨opening, dash⟩⟩
  · exact fun more dash closing => h ⟨more, Or.inr ⟨dash, closing⟩⟩

/-- Induction along the scan of a comment: over the marks and the other characters that it passes,
in the order in which it does. -/
theorem scan_induction {motive : Nat → List Char → Prop} (finish : ∀ depth, motive depth [])
    (opening : ∀ depth rest, motive (depth + 1) rest → motive depth ('\x7b' :: '-' :: rest))
    (closing : ∀ depth rest, (1 < depth → motive (depth - 1) rest) →
      motive depth ('-' :: '\x7d' :: rest))
    (plain : ∀ depth c rest, isMark c rest = false → motive depth rest → motive depth (c :: rest))
    (depth : Nat) (text : List Char) : motive depth text := by
  fun_induction commentTail depth text with
  | case1 depth => exact finish depth
  | case2 depth rest _ _ _ ih => exact opening depth rest ih
  | case3 depth rest outermost => exact closing depth rest fun inner => absurd outermost (by omega)
  | case4 depth rest _ _ _ _ ih => exact closing depth rest fun _ => ih
  | case5 depth c rest not_opening not_closing _ _ _ ih =>
    refine plain depth c rest ?_ ih
    rw [Bool.eq_false_iff, ne_eq, isMark_iff]
    rintro ⟨more, ⟨rfl, rfl⟩ | ⟨rfl, rfl⟩⟩
    · exact not_opening more rfl rfl
    · exact not_closing more rfl rfl

/-- A comment that is closed in a text is closed there whatever follows. -/
theorem commentTail_append_closed {depth : Nat} {text : List Char}
    (h : (commentTail depth text).2 = .initial) (more : List Char) :
    commentTail depth (text ++ more) = commentTail depth text := by
  induction depth, text using scan_induction with
  | finish depth => contradiction
  | opening depth rest ih =>
    rw [commentTail_opening] at h
    rw [List.cons_append, List.cons_append, commentTail_opening, commentTail_opening, ih h]
  | closing depth rest ih =>
    rw [List.cons_append, List.cons_append, commentTail_closing, commentTail_closing]
    split
    · rfl
    · rename_i inner
      rw [commentTail_closing, if_neg inner] at h
      rw [ih (by omega) h]
  | plain depth c rest plain ih =>
    rw [commentTail_plain plain] at h
    cases rest with
    | nil => contradiction
    | cons d rest =>
      have same : isMark c (d :: (rest ++ more)) = isMark c (d :: rest) := rfl
      have later := ih h
      rw [List.cons_append] at later
      rw [List.cons_append, List.cons_append, commentTail_plain (same.trans plain),
        commentTail_plain plain, later]

/-- The scan of a comment that is still open at the end of a text goes on in the next one, if no
mark is torn apart between them. -/
theorem commentTail_append_open {depth left : Nat} {text : List Char}
    (h : (commentTail depth text).2 = .blockComment left) {more : List Char}
    (whole : splitsMark text more = false) :
    commentTail depth (text ++ more) =
      (text.length + (commentTail left more).1, (commentTail left more).2) := by
  induction depth, text using scan_induction with
  | finish depth =>
    obtain rfl : depth = left := by simpa [commentTail] using h
    rw [List.nil_append, List.length_nil, Nat.zero_add]
  | opening depth rest ih =>
    rw [commentTail_opening] at h
    change splitsMark rest more = false at whole
    rw [List.cons_append, List.cons_append, commentTail_opening, ih h whole]
    simp only [List.length_cons, Nat.add_right_comm]
  | closing depth rest ih =>
    rw [commentTail_closing] at h
    split at h
    · contradiction
    · rename_i inner
      change splitsMark rest more = false at whole
      rw [List.cons_append, List.cons_append, commentTail_closing, if_neg inner,
        ih (by omega) h whole]
      simp only [List.length_cons, Nat.add_right_comm]
  | plain depth c rest plain ih =>
    rw [commentTail_plain plain] at h
    have apart : isMark c (rest ++ more) = false ∧ splitsMark rest more = false := by
      cases rest with
      | nil => exact ⟨whole, rfl⟩
      | cons d rest =>
        rw [splitsMark, plain, if_neg Bool.false_ne_true] at whole
        exact ⟨plain, whole⟩
    rw [List.cons_append, commentTail_plain apart.1, ih h apart.2]
    simp only [List.length_cons, Nat.add_right_comm]

end HaskellHighlight.Lexer
