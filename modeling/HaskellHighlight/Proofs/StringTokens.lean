import HaskellHighlight.Proofs.StringGaps

/-! String literals in front of any text. A literal that is described by its items is the token that
the lexer takes. With its closing quote it is a literal whatever follows it, and the well-formed
items are those that are items whatever follows them. -/
namespace HaskellHighlight.Lexer
open Unicode

/-- `ClosedItem item` says that `item` is a well-formed item of a string literal: an ordinary
character, an escape, a control escape, or a gap that is closed. -/
inductive ClosedItem : List Char → Prop where
  | ordinary {c : Char} (quote : c ≠ '"') (slash : c ≠ '\\') (line : isLineBreak c = false) :
      ClosedItem [c]
  | escape {c : Char} (visible : isBlank c = false) (other : c ≠ '^') : ClosedItem ['\\', c]
  | control {c : Char} (name : isControlName c = true) : ClosedItem ['\\', '^', c]
  | gap {blanks : List Char} (some_blank : blanks ≠ [])
      (blank : ∀ c ∈ blanks, isBlank c = true) : ClosedItem ('\\' :: (blanks ++ ['\\']))

/-- The well-formed items are those that the scan passes at once in front of every text. A caret
behind a backslash is none of them, for it takes the name of a control character with it where one
follows, and blanks behind a backslash are none, for they take a backslash with them. -/
theorem closedItem_iff {item : List Char} : ClosedItem item ↔ ∀ rest, StringItem item rest := by
  constructor
  · intro h rest
    cases h with
    | ordinary quote slash line => exact .ordinary quote slash line rest
    | escape visible other => exact .escape visible other rest
    | control name => exact .control name rest
    | gap some_blank blank => exact .gap some_blank blank rest
  · intro h
    cases h ['\\'] with
    | ordinary quote slash line => exact .ordinary quote slash line
    | escape visible other => exact .escape visible other
    | control name => exact .control name
    | caret unnamed => exact absurd (unnamed '\\' rfl) (by decide)
    | gap some_blank blank => exact .gap some_blank blank
    | openGap _ _ unclosed => exact absurd rfl (unclosed '\\' rfl).2

theorem stringItems_of_closed {items : List (List Char)} (closed : ∀ item ∈ items, ClosedItem item)
    (rest : List Char) : StringItems items rest := by
  induction items with
  | nil => exact .nil rest
  | cons item items ih =>
    have first := closedItem_iff.mp (closed item List.mem_cons_self)
    have later := ih fun other mem => closed other (List.mem_cons_of_mem item mem)
    exact .cons (first _) later

/-- A string literal is the first token of a document that starts with it. -/
theorem IsStringLiteral.firstToken {literal after : List Char}
    (h : IsStringLiteral literal after) : FirstToken (.literal .string) literal after := by
  obtain ⟨items, close, rfl, row, ends⟩ := h
  have reach : 1 + stringTail .body (items.flatten ++ (close ++ after)) =
      ('"' :: (items.flatten ++ close)).length := by
    rw [row.stringTail_append, ends.stringTail_append, List.length_cons, List.length_append,
      Nat.add_comm]
  have unit := Dispatch.string (items.flatten ++ (close ++ after))
  rw [reach] at unit
  exact firstToken_of_dispatch unit (by rw [List.cons_append, List.append_assoc])

def IsClosedString (literal : List Char) : Prop :=
  ∃ items, literal = '"' :: (items.flatten ++ ['"']) ∧ StringItems items ['"']

theorem IsStringLiteral.closed_or_line {literal after : List Char}
    (h : IsStringLiteral literal after) :
    IsClosedString literal ∨ ∀ d, after.head? = some d → isLineBreak d = true := by
  obtain ⟨items, close, rfl, row, ends⟩ := h
  cases ends with
  | quote => exact Or.inl ⟨items, rfl, row.of_head rfl⟩
  | lineBreak line rest => exact Or.inr fun d head => Option.some.inj head ▸ line
  | text => exact Or.inr fun d none_there => absurd none_there nofun
  | slash => exact Or.inr fun d none_there => absurd none_there nofun

/-- The closed literals are those that are literals in front of every text. -/
theorem isClosedString_iff {literal : List Char} :
    IsClosedString literal ↔ ∀ after, IsStringLiteral literal after := by
  constructor
  · rintro ⟨items, rfl, row⟩ after
    exact ⟨items, ['"'], rfl, row.of_head rfl, .quote after⟩
  · intro h
    apply (h ['a']).closed_or_line.resolve_right
    intro line
    exact absurd (line 'a' rfl) (by decide)

/-- A string literal of well-formed items is one token, with its closing quote whatever follows it,
and without one where a line break or nothing follows it. -/
theorem string_token (items : List (List Char)) (closed : ∀ item ∈ items, ClosedItem item)
    (after : List Char) :
    FirstToken (.literal .string) ('"' :: (items.flatten ++ ['"'])) after ∧
      ((∀ c, after.head? = some c → isLineBreak c = true) →
        FirstToken (.literal .string) ('"' :: items.flatten) after) := by
  constructor
  · have shape : IsClosedString ('"' :: (items.flatten ++ ['"'])) :=
      ⟨items, rfl, stringItems_of_closed closed _⟩
    exact (isClosedString_iff.mp shape after).firstToken
  · intro line
    have ends : StringEnd [] after := by
      cases after with
      | nil => exact .text
      | cons c rest => exact .lineBreak (line c rfl) rest
    have shape : IsStringLiteral ('"' :: items.flatten) after :=
      ⟨items, [], by rw [List.append_nil], stringItems_of_closed closed _, ends⟩
    exact shape.firstToken

/-- A quote and a backslash that are escaped, a control escape with a backslash, and a gap over a
line break, in front of a quote and of a line break. -/
theorem string_token_of_escapes :
    let items := [['\\', '"'], ['\\', '\\'], ['\\', '^', '\\'], ['\\', ' ', '\n', '\\']]
    (∀ item ∈ items, ClosedItem item) ∧
      FirstToken (.literal .string) ('"' :: (items.flatten ++ ['"'])) "\n\"".toList ∧
      ((∀ c, "\n\"".toList.head? = some c → isLineBreak c = true) →
        FirstToken (.literal .string) ('"' :: items.flatten) "\n\"".toList) := by
  intro items
  have closed : ∀ item ∈ items, ClosedItem item := by
    intro item mem
    simp only [items, List.mem_cons, List.not_mem_nil, or_false] at mem
    rcases mem with rfl | rfl | rfl | rfl
    · exact .escape (by decide) (by decide)
    · exact .escape (by decide) (by decide)
    · exact .control (by decide)
    · have blank : [' ', '\n'].all isBlank = true := by decide
      exact .gap (List.cons_ne_nil ' ' ['\n']) (List.all_eq_true.mp blank)
  exact ⟨closed, string_token items closed "\n\"".toList⟩

end HaskellHighlight.Lexer
