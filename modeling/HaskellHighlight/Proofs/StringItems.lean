import HaskellHighlight.Proofs.TokenText

/-! String literals by what they are made of. The scan of a literal passes one item after another:
ordinary characters, escapes and gaps. A line break is passed inside a gap only; but a gap need not
be closed, and then the literal goes on behind it. -/
namespace HaskellHighlight.Lexer
open Unicode

/-- `StringItem item rest` says that the scan of a string literal passes `item` at once where `rest`
follows it. A caret behind a backslash takes the name of a control character with it, if one
follows, and blanks behind a backslash are all taken, with a backslash behind them if there is
one. -/
inductive StringItem : List Char → List Char → Prop where
  | ordinary {c : Char} (quote : c ≠ '"') (slash : c ≠ '\\') (line : isLineBreak c = false)
      (rest : List Char) : StringItem [c] rest
  | escape {c : Char} (visible : isBlank c = false) (other : c ≠ '^') (rest : List Char) :
      StringItem ['\\', c] rest
  | control {c : Char} (name : isControlName c = true) (rest : List Char) :
      StringItem ['\\', '^', c] rest
  | caret {rest : List Char} (unnamed : ∀ c, rest.head? = some c → isControlName c = false) :
      StringItem ['\\', '^'] rest
  | gap {blanks : List Char} (some_blank : blanks ≠ []) (blank : ∀ c ∈ blanks, isBlank c = true)
      (rest : List Char) : StringItem ('\\' :: (blanks ++ ['\\'])) rest
  | openGap {blanks rest : List Char} (some_blank : blanks ≠ [])
      (blank : ∀ c ∈ blanks, isBlank c = true)
      (unclosed : ∀ c, rest.head? = some c → isBlank c = false ∧ c ≠ '\\') :
      StringItem ('\\' :: blanks) rest

/-- Items in a row, each of them in front of the others and of `rest`. -/
inductive StringItems : List (List Char) → List Char → Prop where
  | nil (rest : List Char) : StringItems [] rest
  | cons {item rest : List Char} {later : List (List Char)}
      (first : StringItem item (later.flatten ++ rest)) (more : StringItems later rest) :
      StringItems (item :: later) rest

/-- `StringEnd close rest` says that a string literal ends where its items are followed by `close`
and `rest`, and that `close` still belongs to it: its closing quote, or a backslash at the end of
the text. It ends without either in front of a line break and at the end of the text. -/
inductive StringEnd : List Char → List Char → Prop where
  | quote (rest : List Char) : StringEnd ['"'] rest
  | lineBreak {c : Char} (line : isLineBreak c = true) (rest : List Char) : StringEnd [] (c :: rest)
  | text : StringEnd [] []
  | slash : StringEnd ['\\'] []

/-- `IsStringLiteral literal after` says that `literal` is a string literal where `after` follows
it: an opening quote, items, and an end. -/
def IsStringLiteral (literal after : List Char) : Prop :=
  ∃ items close, literal = '"' :: (items.flatten ++ close) ∧
    StringItems items (close ++ after) ∧ StringEnd close after

theorem isBlank_of_isLineBreak {c : Char} (h : isLineBreak c = true) : isBlank c = true := by
  simp only [isLineBreak, Bool.or_eq_true, decide_eq_true_eq] at h
  rcases h with rfl | rfl <;> decide

/-- The scan passes the blanks of a gap. -/
theorem stringTail_blanks {blanks : List Char} (blank : ∀ c ∈ blanks, isBlank c = true)
    (rest : List Char) :
    stringTail .gap (blanks ++ rest) = blanks.length + stringTail .gap rest := by
  induction blanks with
  | nil => simp
  | cons c blanks ih =>
    rw [List.cons_append, stringTail, if_pos (blank c List.mem_cons_self),
      ih fun d mem => blank d (List.mem_cons_of_mem c mem), List.length_cons]
    omega

/-- Behind the blanks of a gap that is not closed the scan goes on as in front of it. -/
theorem stringTail_gap {rest : List Char}
    (unclosed : ∀ c, rest.head? = some c → isBlank c = false ∧ c ≠ '\\') :
    stringTail .gap rest = stringTail .body rest := by
  cases rest with
  | nil => rfl
  | cons c rest =>
    obtain ⟨visible, other⟩ := unclosed c rfl
    have line : isLineBreak c = false := by
      rw [Bool.eq_false_iff]
      intro line
      rw [isBlank_of_isLineBreak line] at visible
      contradiction
    simp only [stringTail, visible, other, line, Bool.false_eq_true, if_false]

/-- Behind a caret that names no control character the scan goes on as in front of it. -/
theorem stringTail_caret {rest : List Char}
    (unnamed : ∀ c, rest.head? = some c → isControlName c = false) :
    stringTail .caret rest = stringTail .body rest := by
  cases rest with
  | nil => rfl
  | cons c rest =>
    have unnamed := unnamed c rfl
    have other : c ≠ '\\' := by
      rintro rfl
      exact absurd unnamed (by decide)
    simp only [stringTail, unnamed, other, Bool.false_eq_true, if_false]

private theorem stringTail_slash_blanks {blanks : List Char} (some_blank : blanks ≠ [])
    (blank : ∀ c ∈ blanks, isBlank c = true) (rest : List Char) :
    stringTail .body ('\\' :: (blanks ++ rest)) =
      1 + blanks.length + stringTail .gap rest := by
  obtain ⟨c, more, rfl⟩ := List.exists_cons_of_ne_nil some_blank
  have first : isBlank c = true := blank c List.mem_cons_self
  have later := stringTail_blanks (fun d mem => blank d (List.mem_cons_of_mem c mem)) rest
  have slash : isLineBreak '\\' = false := by decide
  simp only [List.cons_append, stringTail, first, later, slash, Char.reduceEq, if_true, if_false,
    Bool.false_eq_true, List.length_cons]
  omega

/-- The scan passes an item at once. -/
theorem StringItem.stringTail_append {item rest : List Char} (h : StringItem item rest) :
    stringTail .body (item ++ rest) = item.length + stringTail .body rest := by
  have slash : isLineBreak '\\' = false := by decide
  have caret : isBlank '^' = false := by decide
  cases h with
  | ordinary quote other line =>
    simp [stringTail, quote, other, line]
  | escape visible other =>
    simp only [List.cons_append, List.nil_append, stringTail, visible, other, slash, Char.reduceEq,
      if_true, if_false, Bool.false_eq_true, List.length_cons, List.length_nil]
    omega
  | control name =>
    simp only [List.cons_append, List.nil_append, stringTail, name, slash, caret, Char.reduceEq,
      if_true, if_false, Bool.false_eq_true, List.length_cons, List.length_nil]
    omega
  | caret unnamed =>
    simp only [List.cons_append, List.nil_append, stringTail, slash, caret, Char.reduceEq, if_true,
      if_false, Bool.false_eq_true, List.length_cons, List.length_nil, stringTail_caret unnamed]
    omega
  | @gap blanks some_blank blank =>
    have closing : stringTail .gap ('\\' :: rest) = 1 + stringTail .body rest := by
      have visible : isBlank '\\' = false := by decide
      simp [stringTail, visible]
    rw [List.cons_append, List.append_assoc, List.singleton_append,
      stringTail_slash_blanks some_blank blank, closing, List.length_cons, List.length_append,
      List.length_singleton]
    omega
  | openGap some_blank blank unclosed =>
    rw [List.cons_append, stringTail_slash_blanks some_blank blank, stringTail_gap unclosed,
      List.length_cons]
    omega

/-- Where a string literal ends, the scan passes what still belongs to it. -/
theorem StringEnd.stringTail_append {close rest : List Char} (h : StringEnd close rest) :
    stringTail .body (close ++ rest) = close.length := by
  cases h with
  | quote => rfl
  | @lineBreak c line =>
    have other : c ≠ '"' := by
      rintro rfl
      exact absurd line (by decide)
    simp only [List.nil_append, stringTail, other, line, if_false, if_true, List.length_nil]
  | text => rfl
  | slash => rfl

theorem StringItems.stringTail_append {items : List (List Char)} {rest : List Char}
    (h : StringItems items rest) :
    stringTail .body (items.flatten ++ rest) = items.flatten.length + stringTail .body rest := by
  induction h with
  | nil => simp
  | cons first _ ih =>
    rw [List.flatten_cons, List.append_assoc, first.stringTail_append, ih, List.length_append,
      Nat.add_assoc]

private theorem item_of_slash (d : Char) (more : List Char) :
    ∃ item rest, '\\' :: d :: more = item ++ rest ∧ item ≠ [] ∧ StringItem item rest := by
  by_cases blank : isBlank d = true
  · have nonempty : (d :: more).takeWhile isBlank ≠ [] := by
      rw [List.takeWhile_cons_of_pos blank]
      exact List.cons_ne_nil _ _
    have blanks := all_takeWhile isBlank (d :: more)
    have visible (c : Char) (head : ((d :: more).dropWhile isBlank).head? = some c) :
        isBlank c = false := head?_dropWhile head
    have whole : d :: more = (d :: more).takeWhile isBlank ++ (d :: more).dropWhile isBlank :=
      List.takeWhile_append_dropWhile.symm
    generalize (d :: more).takeWhile isBlank = run at *
    generalize (d :: more).dropWhile isBlank = behind at *
    rw [whole]
    by_cases closed : behind.head? = some '\\'
    · obtain ⟨rest, rfl⟩ := List.head?_eq_some_iff.mp closed
      exact ⟨_, rest, by simp, List.cons_ne_nil _ _, .gap nonempty blanks rest⟩
    · exact ⟨_, behind, rfl, List.cons_ne_nil _ _, .openGap nonempty blanks fun c head =>
        ⟨visible c head, fun slash => closed (slash ▸ head)⟩⟩
  · rw [Bool.not_eq_true] at blank
    by_cases caret : d = '^'
    · subst caret
      by_cases named : ∃ c rest, more = c :: rest ∧ isControlName c = true
      · obtain ⟨c, rest, rfl, name⟩ := named
        exact ⟨_, rest, rfl, List.cons_ne_nil _ _, .control name rest⟩
      · refine ⟨_, more, rfl, List.cons_ne_nil _ _, .caret fun c head => ?_⟩
        obtain ⟨rest, rfl⟩ := List.head?_eq_some_iff.mp head
        exact Bool.eq_false_iff.mpr fun name => named ⟨c, rest, rfl, name⟩
    · exact ⟨_, more, rfl, List.cons_ne_nil _ _, .escape blank caret more⟩

private theorem item_or_end (text : List Char) :
    (∃ close after, text = close ++ after ∧ StringEnd close after) ∨
      ∃ item rest, text = item ++ rest ∧ item ≠ [] ∧ StringItem item rest := by
  cases text with
  | nil => exact Or.inl ⟨[], [], rfl, .text⟩
  | cons c rest =>
    by_cases quote : c = '"'
    · exact Or.inl ⟨_, rest, by rw [quote]; rfl, .quote rest⟩
    by_cases line : isLineBreak c = true
    · exact Or.inl ⟨[], _, rfl, .lineBreak line rest⟩
    by_cases slash : c = '\\'
    · subst slash
      cases rest with
      | nil => exact Or.inl ⟨_, [], rfl, .slash⟩
      | cons d more => exact Or.inr (item_of_slash d more)
    · exact Or.inr ⟨[c], rest, rfl, List.cons_ne_nil _ _,
        .ordinary quote slash (Bool.eq_false_iff.mpr line) rest⟩

private theorem items_exist (text : List Char) :
    ∃ items close after, text = items.flatten ++ (close ++ after) ∧
      StringItems items (close ++ after) ∧ StringEnd close after := by
  induction length : text.length using Nat.strongRecOn generalizing text with
  | ind n ih =>
    rcases item_or_end text with ⟨close, after, whole, ends⟩ | ⟨item, rest, rfl, nonempty, first⟩
    · exact ⟨[], close, after, whole, .nil _, ends⟩
    · have shorter : rest.length < n := by
        have := List.length_pos_iff.mpr nonempty
        rw [List.length_append] at length
        omega
      obtain ⟨items, close, after, rfl, more, ends⟩ := ih _ shorter rest rfl
      exact ⟨item :: items, close, after, by rw [List.flatten_cons, List.append_assoc],
        .cons first more, ends⟩

/-- The scan takes a string literal off the front of any text that starts with a quote. -/
theorem isStringLiteral_take (rest : List Char) :
    IsStringLiteral (('"' :: rest).take (1 + stringTail .body rest))
      (('"' :: rest).drop (1 + stringTail .body rest)) := by
  obtain ⟨items, close, after, rfl, row, ends⟩ := items_exist rest
  have reach : stringTail .body (items.flatten ++ (close ++ after)) =
      (items.flatten ++ close).length := by
    rw [row.stringTail_append, ends.stringTail_append, List.length_append]
  rw [reach, Nat.add_comm, List.take_succ_cons, List.drop_succ_cons, ← List.append_assoc,
    List.take_left, List.drop_left]
  exact ⟨items, close, rfl, row, ends⟩

end HaskellHighlight.Lexer
