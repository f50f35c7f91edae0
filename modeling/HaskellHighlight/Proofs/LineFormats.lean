import HaskellHighlight.Lexer.Cursor
import HaskellHighlight.Proofs.QuotedText
import HaskellHighlight.Proofs.Rendering
import HaskellHighlight.Proofs.ExactCover
import HaskellHighlight.Render
import Mathlib.Data.List.Forall2

/-! The line formats are read back: every line gives the offsets, the name and the text that it was
made of. -/
namespace HaskellHighlight

namespace Text

def linesFrom (current : List Char) : List Char → Option (List (List Char))
  | [] => if current.isEmpty then some [] else none
  | c :: rest =>
    if c = '\n' then (linesFrom [] rest).map (current :: ·) else linesFrom (current ++ [c]) rest

def lines? (text : List Char) : Option (List (List Char)) := linesFrom [] text

theorem linesFrom_line {line : List Char} (plain : '\n' ∉ line) (current rest : List Char) :
    linesFrom current (line ++ '\n' :: rest) =
      (lines? rest).map ((current ++ line) :: ·) := by
  induction line generalizing current with
  | nil => rw [List.nil_append, linesFrom, if_pos rfl, List.append_nil, lines?]
  | cons c line ih =>
    obtain ⟨other, later⟩ := List.ne_and_not_mem_of_not_mem_cons plain
    rw [List.cons_append, linesFrom, if_neg (Ne.symm other), ih later, List.append_assoc,
      List.singleton_append]

end Text

namespace Render
open Text

/-- The columns of a line: offsets with two dots between them, a word, and what is behind it. -/
def columns? (line : List Char) : Option (Span × String × List Char) := do
  let (start, rest) ← number? (line.dropWhile (· = ' '))
  match rest with
  | '.' :: '.' :: rest =>
    let (stop, rest) ← number? rest
    let rest := rest.dropWhile (· = ' ')
    let word := rest.takeWhile (· ≠ ' ')
    return (⟨start, stop⟩, String.ofList word, rest.drop word.length)
  | _ => none

def quotedColumn? : List Char → Option (List Char)
  | ' ' :: rest => match unquote? rest with
    | some (text, []) => some text
    | _ => none
  | _ => none

def plainRow? (line : List Char) : Option (Highlight × List Char) := do
  let (span, name, rest) ← columns? line
  let key ← Key.ofName? name
  let text ← quotedColumn? rest
  return (⟨span, key⟩, text)

def lastColumn? (rest : List Char) : Option (Option (List Char)) :=
  if rest.isEmpty then some none else (quotedColumn? rest).map some

def tokenRow? (line : List Char) : Option (Token × Option (List Char)) := do
  let (span, label, rest) ← columns? line
  let kind ← Kind.ofLabel? label
  let text ← lastColumn? rest
  return (⟨kind, span⟩, text)

private theorem dropWhile_blanks {blanks : List Char} (all : ∀ c ∈ blanks, c = ' ')
    (rest : List Char) (ends : rest.head? ≠ some ' ') : (blanks ++ rest).dropWhile (· = ' ') = rest := by
  rw [List.dropWhile_append_of_pos (by simpa using all)]
  cases rest with
  | nil => rfl
  | cons c rest =>
    have other : c ≠ ' ' := fun blank => ends (congrArg some blank)
    exact List.dropWhile_cons_of_neg (by simpa using other)

private theorem oneLine_decimal (n : Nat) : OneLine (decimal n) := by
  intro c mem break_inside
  have other : lineBreaks.all (fun c => !c.isDigit) = true := by decide
  have digit := isDigit_of_mem_decimal mem
  simpa [digit] using List.all_eq_true.mp other c break_inside

private theorem oneLine_blanks {blanks : List Char} (all : ∀ c ∈ blanks, c = ' ') :
    OneLine blanks := by
  intro c mem
  rw [all c mem]
  decide

def IsWord (word : List Char) : Prop := word ≠ [] ∧ ' ' ∉ word ∧ OneLine word

theorem isWord_name (key : Key) : IsWord key.name.toList := by
  have all : ∀ key ∈ Key.all, key.name.toList ≠ [] ∧ ' ' ∉ key.name.toList ∧
      OneLine key.name.toList := by decide +kernel
  exact all key key.mem_all

theorem isWord_label (kind : Kind) : IsWord kind.label.toList := by
  have all : ∀ kind ∈ Kind.all, kind.label.toList ≠ [] ∧ ' ' ∉ kind.label.toList ∧
      OneLine kind.label.toList := by decide +kernel
  exact all kind kind.mem_all

/-- Columns are read back, with any blanks in front of the offsets and some behind them. -/
theorem columns?_written (span : Span) {front middle word rest : List Char}
    (front_blank : ∀ c ∈ front, c = ' ') (middle_blank : ∀ c ∈ middle, c = ' ')
    (apart : middle ≠ []) (is_word : IsWord word) (ends : ∀ c ∈ rest.head?, c = ' ') :
    columns? (front ++ decimal span.start ++ ['.', '.'] ++ decimal span.stop ++ middle ++ word ++
      rest) = some (span, String.ofList word, rest) := by
  obtain ⟨nonempty, word_plain, -⟩ := is_word
  have digit_head (n : Nat) (rest : List Char) : (decimal n ++ rest).head? ≠ some ' ' := by
    obtain ⟨c, digits, eq⟩ := List.exists_cons_of_ne_nil (Nat.toDigits_ne_nil (b := 10) (n := n))
    have digit : c.isDigit = true := isDigit_of_mem_decimal (eq ▸ List.mem_cons_self)
    rw [decimal, eq]
    rintro blank
    obtain rfl := Option.some.inj blank
    contradiction
  have start := dropWhile_blanks front_blank _ (digit_head span.start
    ('.' :: '.' :: (decimal span.stop ++ (middle ++ (word ++ rest)))))
  have stop : EndsNumber (middle ++ (word ++ rest)) := by
    obtain ⟨c, blanks, rfl⟩ := List.exists_cons_of_ne_nil apart
    obtain rfl := middle_blank c List.mem_cons_self
    exact .cons (by decide) _
  have skipped := dropWhile_blanks middle_blank (word ++ rest) fun blank => by
    obtain ⟨c, tail, rfl⟩ := List.exists_cons_of_ne_nil nonempty
    obtain rfl := Option.some.inj blank
    exact word_plain List.mem_cons_self
  have taken : (word ++ rest).takeWhile (· ≠ ' ') = word := by
    have inside : ∀ c ∈ word, decide (c ≠ ' ') = true := fun c mem =>
      decide_eq_true fun blank => word_plain (blank ▸ mem)
    have behind : rest.takeWhile (· ≠ ' ') = [] := by
      cases rest with
      | nil => rfl
      | cons c rest => exact List.takeWhile_cons_of_neg (by simp [ends c rfl])
    rw [List.takeWhile_append_of_pos inside, behind, List.append_nil]
  have whole : front ++ decimal span.start ++ ['.', '.'] ++ decimal span.stop ++ middle ++ word ++
      rest = front ++ (decimal span.start ++
        '.' :: '.' :: (decimal span.stop ++ (middle ++ (word ++ rest)))) := by simp
  rw [whole, columns?, start, number?_decimal _ (.cons (by decide) _)]
  simp only [Option.bind_eq_bind, Option.bind_some, number?_decimal _ stop, skipped, taken,
    List.drop_left, Option.pure_def]

theorem oneLine_columns (span : Span) {front middle word rest : List Char}
    (front_blank : ∀ c ∈ front, c = ' ') (middle_blank : ∀ c ∈ middle, c = ' ')
    (is_word : IsWord word) (behind : OneLine rest) :
    OneLine (front ++ decimal span.start ++ ['.', '.'] ++ decimal span.stop ++ middle ++ word ++
      rest) := by
  have dots : OneLine ['.', '.'] := by decide
  have offsets : OneLine (front ++ decimal span.start ++ ['.', '.'] ++ decimal span.stop) :=
    (((oneLine_blanks front_blank).append (oneLine_decimal _)).append dots).append
      (oneLine_decimal _)
  exact ((offsets.append (oneLine_blanks middle_blank)).append is_word.2.2).append behind

theorem quotedColumn?_quoted (text : List Char) : quotedColumn? (' ' :: quoted text) = some text := by
  have read := unquote?_quoted text []
  rw [List.append_nil] at read
  rw [quotedColumn?, read]

theorem oneLine_quotedColumn (text : List Char) : OneLine (' ' :: quoted text) := by
  have blank : ∀ c ∈ [' '], c = ' ' := by simp
  exact (oneLine_blanks blank).append (oneLine_quoted text)

/-- The line of a highlight gives back the highlight and the text that it covers. -/
theorem plainLine_read {text part : List Char} {highlight : Highlight}
    (slice : highlight.span.slice? text = some part) :
    ∃ line, plainLine text highlight = some (line ++ ['\n']) ∧ OneLine line ∧
      plainRow? line = some (highlight, part) := by
  have blank : ∀ c ∈ [' '], c = ' ' := by simp
  have name := isWord_name highlight.key
  have no_blank : ∀ c ∈ ([] : List Char), c = ' ' := nofun
  have ends : ∀ c ∈ (' ' :: quoted part).head?, c = ' ' := by simp
  have read := columns?_written highlight.span no_blank blank (List.cons_ne_nil _ _) name ends
  refine ⟨_, ?_, oneLine_columns highlight.span no_blank blank name (oneLine_quotedColumn part), ?_⟩
  · simp [plainLine, slice]
  · rw [plainRow?, read]
    simp [Key.ofName?_name, quotedColumn?_quoted]

def shownText (kind : Kind) (part : List Char) : Option (List Char) :=
  if kind = .whitespace ∨ kind = .newline then none else some part

/-- The line of a token gives back the token, and the text that it covers where it is shown. -/
theorem tokenLine_read {text part : List Char} {token : Token}
    (slice : token.span.slice? text = some part) :
    ∃ line, tokenLine text token = some (line ++ ['\n']) ∧ OneLine line ∧
      tokenRow? line = some (token, shownText token.kind part) := by
  obtain ⟨kind, span⟩ := token
  have pad (digits : List Char) : ∀ c ∈ padding digits, c = ' ' := fun _ mem =>
    List.eq_of_mem_replicate mem
  have middle : ∀ c ∈ padding (decimal span.stop) ++ [' '], c = ' ' :=
    List.forall_mem_append.mpr ⟨pad _, by simp⟩
  have label := isWord_label kind
  obtain ⟨last, written, ends, line, read⟩ : ∃ last : List Char,
      tokenLine text ⟨kind, span⟩ = some (padding (decimal span.start) ++ decimal span.start ++
        ['.', '.'] ++ decimal span.stop ++ (padding (decimal span.stop) ++ [' ']) ++
        kind.label.toList ++ last ++ ['\n']) ∧
      (∀ c ∈ last.head?, c = ' ') ∧ OneLine last ∧
      lastColumn? last = some (shownText kind part) := by
    by_cases hidden : kind = .whitespace ∨ kind = .newline
    · refine ⟨[], ?_, nofun, nofun, by simp [shownText, hidden, lastColumn?]⟩
      rcases hidden with rfl | rfl <;> simp [tokenLine, slice]
    · refine ⟨' ' :: quoted part, ?_, by simp, oneLine_quotedColumn part, ?_⟩
      · cases kind with
        | whitespace | newline => simp at hidden
        | _ => simp [tokenLine, slice]
      · simp [shownText, hidden, lastColumn?, quotedColumn?_quoted]
  refine ⟨_, written, oneLine_columns span (pad _) middle label line, ?_⟩
  rw [tokenRow?, columns?_written span (pad _) middle (by simp) label ends]
  have own : Kind.ofLabel? kind.label = some kind := Kind.ofLabel?_eq_some_iff.mpr rfl
  simp only [Option.bind_eq_bind, Option.bind_some, String.ofList_toList, own, read,
    Option.pure_def]

/-- Lines that are made of items give back as many lines, each with what it was made of. -/
theorem exists_lines {α : Type} {f : α → Option (List Char)} {P : List Char → α → Prop}
    {items : List α} (each : ∀ item ∈ items, ∃ line, f item = some (line ++ ['\n']) ∧
      OneLine line ∧ P line item) :
    ∃ written lines, (items.mapM f).map List.flatten = some written ∧
      lines? written = some lines ∧
      List.Forall₂ (fun line item => OneLine line ∧ P line item) lines items := by
  induction items with
  | nil => exact ⟨[], [], rfl, rfl, .nil⟩
  | cons item items ih =>
    obtain ⟨⟨line, made, one_line, holds⟩, later⟩ := List.forall_mem_cons.mp each
    obtain ⟨written, lines, rest, split, all⟩ := ih later
    obtain ⟨pieces, mapped, rfl⟩ := Option.map_eq_some_iff.mp rest
    have plain : '\n' ∉ line := fun feed => one_line '\n' feed (by decide)
    refine ⟨line ++ '\n' :: pieces.flatten, line :: lines, ?_, ?_, .cons ⟨one_line, holds⟩ all⟩
    · simp [List.mapM_cons, made, mapped]
    · rw [lines?, linesFrom_line plain, split]
      rfl

end Render

/-- The listing of highlights, which lie in the text in any order, has a line for each of them, and
the line gives back the highlight and the text that it covers. The listing of the tokens of a text
has a line for each token, and the line gives back the token, with its text unless it is a blank or a
line break. -/
theorem line_formats_read (text : List Char) :
    (∀ highlights : List Highlight, (∀ highlight ∈ highlights, highlight.span.LiesIn text) →
      ∃ written lines, Render.plain text highlights = some written ∧
        Text.lines? written = some lines ∧
        List.Forall₂ (fun line highlight => Text.OneLine line ∧
          ∃ part, highlight.span.slice? text = some part ∧
            Render.plainRow? line = some (highlight, part)) lines highlights) ∧
    ∃ written lines, Render.tokenListing text (Lexer.tokens text) = some written ∧
      Text.lines? written = some lines ∧
      List.Forall₂ (fun line token => Text.OneLine line ∧
        ∃ part, token.span.slice? text = some part ∧
          Render.tokenRow? line = some (token, Render.shownText token.kind part))
        lines (Lexer.tokens text) := by
  constructor
  · intro highlights inside
    refine Render.exists_lines fun highlight mem => ?_
    obtain ⟨part, slice⟩ := (inside highlight mem).slice?
    obtain ⟨line, made, one_line, read⟩ := Render.plainLine_read slice
    exact ⟨line, made, one_line, part, slice, read⟩
  · refine Render.exists_lines fun token mem => ?_
    obtain ⟨part, slice⟩ := Lexer.tokensFrom_slice? mem
    obtain ⟨line, made, one_line, read⟩ := Render.tokenLine_read slice
    exact ⟨line, made, one_line, part, slice, read⟩

end HaskellHighlight
