import HaskellHighlight.Proofs.StringItems

/-! Line breaks inside string literals. A literal goes on behind a line break only where that is one
of the blanks of a gap. The blanks of a gap are taken before it is known whether the gap is closed,
so that a backslash at the end of a line takes the line break whatever follows it. -/
namespace HaskellHighlight.Lexer
open Unicode

theorem exists_of_getElem?_flatten {α : Type} {pieces : List (List α)} {place : Nat} {c : α}
    (h : pieces.flatten[place]? = some c) :
    ∃ before piece later k, pieces = before ++ piece :: later ∧
      place = before.flatten.length + k ∧ piece[k]? = some c := by
  induction pieces generalizing place with
  | nil => simp at h
  | cons piece pieces ih =>
    rw [List.flatten_cons] at h
    rcases Nat.lt_or_ge place piece.length with inside | behind
    · rw [List.getElem?_append_left inside] at h
      exact ⟨[], piece, pieces, place, rfl, (Nat.zero_add place).symm, h⟩
    · rw [List.getElem?_append_right behind] at h
      obtain ⟨before, found, later, k, rfl, reached, char⟩ := ih h
      refine ⟨piece :: before, found, later, k, rfl, ?_, char⟩
      rw [List.flatten_cons, List.length_append]
      omega

/-- Whether a text is an item depends on the first character behind it only. -/
theorem StringItem.of_head {item rest other : List Char} (h : StringItem item rest)
    (same : other.head? = rest.head?) : StringItem item other := by
  cases h with
  | ordinary quote slash line => exact .ordinary quote slash line other
  | escape visible caret => exact .escape visible caret other
  | control name => exact .control name other
  | caret unnamed => exact .caret fun c head => unnamed c (same ▸ head)
  | gap some_blank blank => exact .gap some_blank blank other
  | openGap some_blank blank unclosed =>
    exact .openGap some_blank blank fun c head => unclosed c (same ▸ head)

/-- Items in a row, cut in front of one of them. -/
theorem StringItems.split {before later : List (List Char)} {item rest : List Char}
    (h : StringItems (before ++ item :: later) rest) :
    StringItems before (item ++ (later.flatten ++ rest)) ∧
      StringItem item (later.flatten ++ rest) := by
  induction before with
  | nil =>
    cases h with
    | cons first => exact ⟨.nil _, first⟩
  | cons front before ih =>
    rw [List.cons_append] at h
    cases h with
    | cons first more =>
      obtain ⟨row, inner⟩ := ih more
      refine ⟨.cons ?_ row, inner⟩
      rwa [List.flatten_append, List.flatten_cons, List.append_assoc, List.append_assoc] at first

/-- Items in a row are items in a row in front of any text with the same first character. -/
theorem StringItems.of_head {items : List (List Char)} {rest other : List Char}
    (h : StringItems items rest) (same : other.head? = rest.head?) : StringItems items other := by
  induction h with
  | nil => exact .nil other
  | cons first _ ih =>
    refine .cons (first.of_head ?_) (ih same)
    rw [List.head?_append, List.head?_append, same]

/-- A line break in an item is one of the blanks of a gap, closed or not. -/
theorem StringItem.gap_of_lineBreak {item rest : List Char} (h : StringItem item rest) {k : Nat}
    {c : Char} (char : item[k]? = some c) (line : isLineBreak c = true) :
    ∃ blanks close, item = '\\' :: (blanks ++ close) ∧ (∀ d ∈ blanks, isBlank d = true) ∧
      1 ≤ k ∧ k ≤ blanks.length ∧
      (close = ['\\'] ∨ close = [] ∧
        ∀ d, rest.head? = some d → isBlank d = false ∧ d ≠ '\\') := by
  have mem : c ∈ item := List.mem_of_getElem? char
  have blank := isBlank_of_isLineBreak line
  have slash : c ≠ '\\' := by
    rintro rfl
    exact absurd line (by decide)
  have caret : c ≠ '^' := by
    rintro rfl
    exact absurd line (by decide)
  have behind {others : List Char} (whole : item = '\\' :: others) :
      1 ≤ k ∧ others[k - 1]? = some c := by
    subst whole
    cases k with
    | zero => exact absurd (Option.some.inj char).symm slash
    | succ k => exact ⟨Nat.succ_pos k, char⟩
  cases h with
  | ordinary _ _ other =>
    obtain rfl := List.mem_singleton.mp mem
    rw [line] at other
    contradiction
  | escape visible =>
    obtain rfl := by simpa [slash] using mem
    rw [blank] at visible
    contradiction
  | control name =>
    obtain rfl := by simpa [slash, caret] using mem
    simp only [isLineBreak, Bool.or_eq_true, decide_eq_true_eq] at line
    rcases line with rfl | rfl <;> exact absurd name (by decide)
  | caret => simp [slash, caret] at mem
  | @gap blanks _ blank =>
    obtain ⟨later, char⟩ := behind rfl
    refine ⟨blanks, ['\\'], rfl, blank, later, Nat.le_of_not_lt fun beyond => ?_, Or.inl rfl⟩
    rw [List.getElem?_append_right (by omega)] at char
    exact slash (List.mem_singleton.mp (List.mem_of_getElem? char))
  | @openGap blanks _ _ blank unclosed =>
    obtain ⟨later, char⟩ := behind rfl
    have inside := (List.getElem?_eq_some_iff.mp char).1
    exact ⟨blanks, [], by rw [List.append_nil], blank, later, by omega, Or.inr ⟨rfl, unclosed⟩⟩

/-- `InGap literal place behind` says that at `place` of a string literal stands one of the blanks
of a gap, all of them there are, and that the literal goes on with `behind` after them. Items stand
between the opening quote and the backslash that starts the gap, so that it is not escaped. -/
def InGap (literal : List Char) (place : Nat) (behind : List Char) : Prop :=
  ∃ items blanks, literal = '"' :: (items.flatten ++ '\\' :: (blanks ++ behind)) ∧
    StringItems items ('\\' :: (blanks ++ behind)) ∧
    (∀ c ∈ blanks, isBlank c = true) ∧ (∀ c, behind.head? = some c → isBlank c = false) ∧
    items.flatten.length + 2 ≤ place ∧ place < items.flatten.length + 2 + blanks.length

/-- A line break of a string literal stands in a gap. -/
theorem IsStringLiteral.inGap {literal after : List Char} (h : IsStringLiteral literal after)
    {place : Nat} {c : Char} (char : literal[place]? = some c) (line : isLineBreak c = true) :
    ∃ behind, InGap literal place behind := by
  obtain ⟨items, close, rfl, row, ends⟩ := h
  have quote : c ≠ '"' := by
    rintro rfl
    exact absurd line (by decide)
  obtain ⟨i, rfl⟩ : ∃ i, place = i + 1 := by
    cases place with
    | zero => exact absurd (Option.some.inj char).symm quote
    | succ i => exact ⟨i, rfl⟩
  rw [List.getElem?_cons_succ] at char
  have inside : i < items.flatten.length := by
    refine Nat.lt_of_not_le fun beyond => ?_
    rw [List.getElem?_append_right beyond] at char
    have mem := List.mem_of_getElem? char
    cases ends with
    | quote => exact quote (List.mem_singleton.mp mem)
    | lineBreak => exact absurd mem List.not_mem_nil
    | text => exact absurd mem List.not_mem_nil
    | slash =>
      obtain rfl := List.mem_singleton.mp mem
      exact absurd line (by decide)
  rw [List.getElem?_append_left inside] at char
  obtain ⟨before, item, later, k, rfl, rfl, within⟩ := exists_of_getElem?_flatten char
  obtain ⟨front, found⟩ := row.split
  obtain ⟨blanks, closing, rfl, blank, positive, le, closed⟩ := found.gap_of_lineBreak within line
  refine ⟨closing ++ (later.flatten ++ close), before, blanks, ?_, front.of_head rfl, blank, ?_,
    by omega, by omega⟩
  · simp only [List.flatten_append, List.flatten_cons, List.append_assoc, List.cons_append]
  · intro d head
    rcases closed with rfl | ⟨rfl, unclosed⟩
    · obtain rfl : '\\' = d := Option.some.inj head
      decide
    · refine (unclosed d ?_).1
      rw [List.nil_append] at head
      rw [← List.append_assoc, List.head?_append, head]
      rfl

/-- A string literal is found by the rule for it only. -/
theorem Dispatch.string_eq {c : Char} {rest : List Char} {lexeme : Lexeme}
    (h : Dispatch c rest lexeme) (kind : lexeme.kind = .literal .string) :
    c = '"' ∧ lexeme.length = 1 + stringTail .body rest := by
  cases h with
  | string => exact ⟨rfl, rfl⟩
  | number => exact absurd (Kind.literal.inj kind) (number_ne_string (c :: rest))
  | smallName => rcases word_kind (c :: rest) with ⟨_, e⟩ | ⟨_, e⟩ | e <;> simp [e] at kind
  | operator =>
    rcases symbol_kind (c :: rest) with ⟨_, e⟩ | e
    · simp [e] at kind
    · simp [kind] at e
  | comment | special | lineFeed | carriageReturn | bothBreaks | space | character | strayQuote
  | largeName | unknown => simp [Lexeme.comment, Lexeme.plain, Lexeme.constructor] at kind

/-- A string token is a string literal. -/
theorem Cursor.next?_string {cursor after : Cursor} {token : Token}
    (call : cursor.next? = some (token, after)) (kind : token.kind = .literal .string) :
    ∃ literal, cursor.rest = literal ++ after.rest ∧ IsStringLiteral literal after.rest := by
  obtain ⟨c, rest, text, same, -, -, taken, -, length, cut, -⟩ := next?_eq_some call
  rw [same] at kind
  have none_open : cursor.state = .initial := by
    cases state : cursor.state with
    | initial => rfl
    | blockComment depth =>
      rw [lexeme_blockComment state] at kind
      contradiction
  rw [lexeme_initial none_open] at kind length
  split at kind
  · contradiction
  rename_i none_due
  rw [if_neg none_due] at length
  obtain ⟨rfl, far⟩ := (Lexeme.first_dispatch c rest).string_eq kind
  have literal := isStringLiteral_take rest
  rw [← far, ← length, ← text, cut, List.take_left, List.drop_left] at literal
  exact ⟨taken, cut, literal⟩

/-- A string literal crosses a line only in a gap. Without a closing quote it ends in front of a
line break or with the text. Every line break in it is one of the blanks behind a backslash that is
not escaped. Behind those blanks the literal goes on with a backslash, with another character that
is not blank, or not at all. -/
theorem string_lineBreak (text : List Char) (state : State) (place : Nat) (token : Token)
    (nth : (tokensFrom text state)[place]? = some token)
    (kind : token.kind = .literal .string) :
    ∃ before literal after, text = before ++ literal ++ after ∧
      token.span = ⟨Text.byteLength before, Text.byteLength before + Text.byteLength literal⟩ ∧
      IsStringLiteral literal after ∧
      ∀ i c, literal[i]? = some c → isLineBreak c = true → ∃ behind, InGap literal i behind := by
  obtain ⟨before, taken, same, whole, span⟩ := Cursor.span_of_getElem? nth
  obtain ⟨literal, cut, shape⟩ := Cursor.next?_string (Cursor.next?_of_getElem? nth) kind
  obtain rfl := List.append_cancel_right (cut.symm.trans same)
  exact ⟨before, literal, _, whole, span, shape, fun i c => shape.inGap⟩

/-- A gap that is closed, behind a comment that was open in front of the text. -/
theorem string_lineBreak_of_closed_gap :
    ∃ before literal after, "-\x7d\"a\\\r\n\\b\"c".toList = before ++ literal ++ after ∧
      (⟨2, 10⟩ : Span) =
        ⟨Text.byteLength before, Text.byteLength before + Text.byteLength literal⟩ ∧
      IsStringLiteral literal after ∧
      ∀ i c, literal[i]? = some c → isLineBreak c = true → ∃ behind, InGap literal i behind :=
  string_lineBreak "-\x7d\"a\\\r\n\\b\"c".toList (.blockComment 1) 1
    ⟨.literal .string, ⟨2, 10⟩⟩ (by decide +kernel) rfl

/-- A gap need not be closed: behind a backslash at the end of a line the literal goes on with the
next line. -/
theorem string_lineBreak_in_open_gap :
    tokens "\"a\\\nb".toList = [⟨.literal .string, ⟨0, 5⟩⟩] ∧
      "\"a\\\nb".toList[3]? = some '\n' ∧ isLineBreak '\n' = true ∧
      ¬ ∃ behind, InGap "\"a\\\nb".toList 3 ('\\' :: behind) := by
  refine ⟨by decide +kernel, by decide, by decide, ?_⟩
  rintro ⟨behind, items, blanks, whole, -⟩
  have one : "\"a\\\nb".toList.count '\\' = 1 := by decide
  rw [whole] at one
  simp only [List.count_cons, List.count_append, beq_self_eq_true, if_true] at one
  omega

end HaskellHighlight.Lexer
