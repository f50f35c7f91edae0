import HaskellHighlight.Proofs.ColorText
import HaskellHighlight.Proofs.JsonReader
import HaskellHighlight.Proofs.ExactCover
import HaskellHighlight.Render
import Mathlib.Data.List.Forall2

/-! The JSON of highlights is read back: an array with an object for each of them, which gives its
offsets, key, colour and text. -/
namespace HaskellHighlight

theorem Rgb.parse?_text (color : Rgb) : parse? color.text = some color := by
  have pair (channel : UInt8) : ∃ high low, Text.hexDigits 2 channel.toNat = [high, low] ∧
      channel? high low = some channel := by
    have upper := Text.hexDigitValue?_hexDigit (Nat.mod_lt (channel.toNat / 16) (by decide : 0 < 16))
    have lower := Text.hexDigitValue?_hexDigit (Nat.mod_lt channel.toNat (by decide : 0 < 16))
    have below : channel.toNat < 256 := channel.toNat_lt
    rw [hexDigitValue?_eq_some_iff] at upper lower
    exact ⟨_, _, rfl, channel?_eq_some_iff.mpr (.inl ⟨_, _, upper, lower, by omega⟩)⟩
  obtain ⟨a, b, red, first⟩ := pair color.red
  obtain ⟨c, d, green, second⟩ := pair color.green
  obtain ⟨e, f, blue, third⟩ := pair color.blue
  rw [channel?_eq_some_iff] at first second third
  refine parse?_eq_some_iff.mpr ⟨_, .inr ?_, a, b, c, d, e, f, rfl, first, second, third⟩
  simp only [text, red, green, blue, String.toList_ofList]
  rfl

namespace Json
open Text Render

/-- What is written for a character: an escape of one letter, an escape by code unit, or the
character itself where it is neither a mark nor a control. -/
theorem jsonChar_cases (c : Char) :
    (∃ d ∈ ['"', '\\', 'b', 't', 'n', 'f', 'r'], simpleEscape? d = some c ∧
      jsonChar c = ['\\', d]) ∨
    (c.toNat < 0x20 ∧ jsonChar c = ['\\', 'u'] ++ hexDigits 4 c.toNat) ∨
    (c ≠ '"' ∧ c ≠ '\\' ∧ ¬c.toNat < 0x20 ∧ jsonChar c = [c]) := by
  have letter (d : Char) (known : d ∈ ['"', '\\', 'b', 't', 'n', 'f', 'r'])
      (stands : simpleEscape? d = some c) : ∃ e ∈ ['"', '\\', 'b', 't', 'n', 'f', 'r'],
        simpleEscape? e = some c ∧ ['\\', d] = ['\\', e] := ⟨d, known, stands, rfl⟩
  rw [jsonChar]
  split
  · subst c; exact .inl (letter '"' (by decide) rfl)
  rename_i mark
  split
  · subst c; exact .inl (letter '\\' (by decide) rfl)
  rename_i slash
  split
  · subst c; exact .inl (letter 'b' (by decide) rfl)
  split
  · subst c; exact .inl (letter 't' (by decide) rfl)
  split
  · subst c; exact .inl (letter 'n' (by decide) rfl)
  split
  · subst c; exact .inl (letter 'f' (by decide) rfl)
  split
  · subst c; exact .inl (letter 'r' (by decide) rfl)
  split
  · rename_i control
    exact .inr (.inl ⟨control, rfl⟩)
  · rename_i seen
    exact .inr (.inr ⟨mark, slash, seen, rfl⟩)

theorem stringFrom_jsonChar (c : Char) (rest : List Char) :
    stringFrom .text (jsonChar c ++ rest) = readBefore c (stringFrom .text rest) := by
  rcases jsonChar_cases c with ⟨d, known, stands, eq⟩ | ⟨control, eq⟩ | ⟨mark, slash, seen, eq⟩
  · have other : d ≠ 'u' := by
      rintro rfl
      exact absurd known (by decide)
    rw [eq, List.cons_append, List.singleton_append, stringFrom, if_neg (by decide), if_pos rfl,
      stringFrom, if_neg other]
    simp only [stands]
  · rw [eq, List.append_assoc]
    exact stringFrom_codeUnit (Nat.lt_trans control (by decide)) rest
  · rw [eq, List.singleton_append, stringFrom, if_neg mark, if_neg slash, if_neg seen]

/-- Every text is read back from its string, whatever comes behind it. -/
theorem stringFrom_jsonString (text rest : List Char) :
    stringFrom .text (text.flatMap jsonChar ++ '"' :: rest) = some (text, rest) := by
  induction text with
  | nil => rfl
  | cons c text ih =>
    rw [List.flatMap_cons, List.append_assoc, stringFrom_jsonChar, ih]
    rfl

section series
variable {α : Type} {item? : List Char → Option (α × List Char)} {close : Char}

/-- A reader takes what is written for an item, and leaves what stands behind it. -/
def Reads (item? : List Char → Option (α × List Char)) (written : List Char) (item : α) : Prop :=
  ∀ rest, EndsItem rest → item? (skipBlanks (written ++ rest)) = some (item, rest)

theorem series?_blank {c : Char} (blank : isBlank c = true) (rounds : Nat) (text : List Char) :
    series? item? close rounds (c :: text) = series? item? close rounds text := by
  cases rounds with
  | zero => rfl
  | succ rounds => rw [series?, series?, skipBlanks_blank blank]

/-- A series is read back: its items with commas and line breaks between them, and a closing mark
on a line of its own. -/
theorem series?_written (blank : isBlank close = false) (comma : close ≠ ',')
    {indent : List Char} (blanks : ∀ c ∈ indent, isBlank c = true) (rest : List Char)
    {writtens : List (List Char)} {items : List α}
    (reads : List.Forall₂ (Reads item?) writtens items) (nonempty : writtens ≠ []) {rounds : Nat}
    (enough : writtens.length ≤ rounds) :
    series? item? close rounds
      ([',', '\n'].intercalate writtens ++ '\n' :: (indent ++ close :: rest)) =
        some (items, rest) := by
  induction reads generalizing rounds with
  | nil => contradiction
  | @cons written item writtens items read later ih =>
    obtain ⟨rounds, rfl⟩ : ∃ n, rounds = n + 1 := Nat.exists_eq_add_one.mpr (by
      rw [List.length_cons] at enough
      omega)
    rw [List.length_cons] at enough
    cases writtens with
    | nil =>
      obtain rfl := List.forall₂_nil_left_iff.mp later
      have ends : EndsItem ('\n' :: (indent ++ close :: rest)) := fun _ head =>
        .inr (Option.some.inj head).symm
      rw [List.intercalate_singleton, series?, read _ ends]
      simp [skipBlanks_blank (show isBlank '\n' = true from rfl), skipBlanks_blanks blanks,
        skipBlanks_other blank, comma]
    | cons next writtens =>
      have tail := ih (List.cons_ne_nil _ _) (Nat.le_of_succ_le_succ enough)
      rw [List.intercalate_cons_cons, List.append_assoc, List.append_assoc, series?, read]
      · simp [skipBlanks_other (show isBlank ',' = false from rfl), series?_blank
          (show isBlank '\n' = true from rfl), tail]
      · exact fun _ head => .inl (Option.some.inj head).symm

theorem length_le_intercalate (writtens : List (List Char)) :
    writtens.length ≤ ([',', '\n'].intercalate writtens).length + 1 := by
  induction writtens with
  | nil => exact Nat.zero_le _
  | cons written writtens ih =>
    cases writtens with
    | nil => simp
    | cons next writtens =>
      rw [List.intercalate_cons_cons, List.length_append, List.length_append]
      simp only [List.length_cons, List.length_nil] at ih ⊢
      omega

/-- Items between an opening and a closing mark are read back. The first of them must not look like
the closing mark. -/
theorem elements?_written (blank : isBlank close = false) (comma : close ≠ ',')
    {indent : List Char} (blanks : ∀ c ∈ indent, isBlank c = true) (rest : List Char)
    {first : List Char} {writtens : List (List Char)} {items : List α} {c : Char}
    {tail : List Char} (opens : skipBlanks first = c :: tail) (other : c ≠ close)
    (reads : List.Forall₂ (Reads item?) (first :: writtens) items) :
    elements? item? close
      ('\n' :: ([',', '\n'].intercalate (first :: writtens) ++ '\n' :: (indent ++ close :: rest))) =
        some (items, rest) := by
  have feed : isBlank '\n' = true := rfl
  obtain ⟨more, front⟩ : ∃ more, [',', '\n'].intercalate (first :: writtens) = first ++ more := by
    cases writtens with
    | nil => exact ⟨[], by simp⟩
    | cons next writtens => exact ⟨_, by rw [List.intercalate_cons_cons, List.append_assoc]⟩
  have skipped (behind : List Char) : skipBlanks (first ++ behind) = c :: (tail ++ behind) := by
    rw [skipBlanks] at opens ⊢
    simp [List.dropWhile_append, opens]
  have enough : (first :: writtens).length ≤ ('\n' :: ([',', '\n'].intercalate (first :: writtens) ++
      '\n' :: (indent ++ close :: rest))).length := by
    have short := length_le_intercalate (first :: writtens)
    simp only [List.length_cons, List.length_append] at short ⊢
    omega
  have series := series?_written blank comma blanks rest reads (List.cons_ne_nil _ _) enough
  rw [elements?, skipBlanks_blank feed, series?_blank feed, series, front, List.append_assoc, skipped]
  exact if_neg other

end series

theorem reads_string (nesting : Nat) (text : List Char) :
    Reads (value? nesting) (jsonString text) (.string (String.ofList text)) := by
  intro rest _
  have whole : jsonString text ++ rest = '"' :: (text.flatMap jsonChar ++ '"' :: rest) := by
    simp [jsonString]
  rw [whole, skipBlanks_other rfl, value?, stringFrom_jsonString]
  rfl

theorem reads_decimal (nesting n : Nat) :
    Reads (value? nesting) (decimal n) (.number n 0) := by
  intro rest ends
  obtain ⟨c, digits, eq⟩ := List.exists_cons_of_ne_nil (decimal_ne_nil n)
  have digit : c.isDigit = true := isDigit_of_mem_decimal (eq ▸ List.mem_cons_self)
  have other : isBlank c = false := by
    simp only [isBlank, Bool.or_eq_false_iff, decide_eq_false_iff_not]
    refine ⟨⟨⟨?_, ?_⟩, ?_⟩, ?_⟩ <;> rintro rfl <;> contradiction
  have skipped : skipBlanks (decimal n ++ rest) = decimal n ++ rest := by
    rw [eq, List.cons_append, skipBlanks_other other]
  rw [skipped, value?_decimal nesting n ends]

theorem reads_member {nesting : Nat} {written : List Char} {value : Json} (name : String)
    (reads : Reads (value? nesting) written value) :
    Reads (member? (value? nesting)) (jsonMember name written) (name, value) := by
  intro rest ends
  have whole : jsonMember name written ++ rest = [' ', ' ', ' ', ' '] ++
      '"' :: (name.toList.flatMap jsonChar ++ '"' :: (':' :: ' ' :: (written ++ rest))) := by
    -- stated as it stands in the definition, whose own equation is slow to make
    change "    ".toList ++ jsonString name.toList ++ [':', ' '] ++ written ++ rest = _
    simp [jsonString]
  have indent : ∀ c ∈ [' ', ' ', ' ', ' '], isBlank c = true := by simp [isBlank]
  rw [whole, skipBlanks_blanks indent, skipBlanks_other rfl, member?, stringFrom_jsonString]
  simp [skipBlanks_other (show isBlank ':' = false from rfl),
    skipBlanks_blank (show isBlank ' ' = true from rfl), reads rest ends]

theorem reads_object {nesting : Nat} {name : String} {first : List Char}
    {writtens : List (List Char)} {members : List (String × Json)}
    (reads : List.Forall₂ (Reads (member? (value? nesting))) (jsonMember name first :: writtens)
      members) :
    Reads (value? (nesting + 1)) ("  \x7b\n".toList ++
      [',', '\n'].intercalate (jsonMember name first :: writtens) ++ "\n  \x7d".toList)
      (.object members) := by
  intro rest _
  have opens : ∃ tail, skipBlanks (jsonMember name first) = '"' :: tail := ⟨_, rfl⟩
  obtain ⟨tail, opens⟩ := opens
  have whole (lines : List Char) : "  \x7b\n".toList ++ lines ++ "\n  \x7d".toList ++ rest =
      [' ', ' '] ++ '\x7b' :: '\n' :: (lines ++ '\n' :: ([' ', ' '] ++ '\x7d' :: rest)) := by simp
  have indent : ∀ c ∈ [' ', ' '], isBlank c = true := by simp [isBlank]
  rw [whole, skipBlanks_blanks indent, skipBlanks_other rfl, value?,
    elements?_written rfl (by decide) indent rest opens (by decide) reads]
  rfl

/-- What the JSON of a highlight gives: its offsets, its key, the colour of the key, and the text
that it covers. -/
def Describes (scheme : Scheme) (text : List Char) (object : Json) (highlight : Highlight) : Prop :=
  ∃ part key color, highlight.span.slice? text = some part ∧
    object = .object [("start", .number highlight.span.start 0),
      ("end", .number highlight.span.stop 0), ("key", .string key), ("color", .string color),
      ("text", .string (String.ofList part))] ∧
    Key.ofName? key = some highlight.key ∧
    Rgb.parse? color = some (scheme.colorFor highlight.key)

/-- The object of a highlight is read back, and describes it. -/
theorem jsonObject_read (scheme : Scheme) {text part : List Char} {highlight : Highlight}
    (slice : highlight.span.slice? text = some part) :
    ∃ written object, jsonObject scheme text highlight = some written ∧
      (∃ tail, skipBlanks written = '\x7b' :: tail) ∧
      (∀ nesting, Reads (value? (nesting + 1)) written object) ∧
      Describes scheme text object highlight := by
  have key : Key.ofName? highlight.key.serialName = some highlight.key := by
    rw [Key.serialName_eq_name, Key.ofName?_name]
  have members (nesting : Nat) :=
    List.Forall₂.cons (reads_member "start" (reads_decimal nesting highlight.span.start))
      (.cons (reads_member "end" (reads_decimal nesting highlight.span.stop))
        (.cons (reads_member "key" (reads_string nesting highlight.key.serialName.toList))
          (.cons (reads_member "color"
              (reads_string nesting (scheme.colorFor highlight.key).text.toList))
            (.cons (reads_member "text" (reads_string nesting part)) .nil))))
  simp only [String.ofList_toList] at members
  refine ⟨_, _, ?_, ⟨_, rfl⟩, fun nesting => reads_object (members nesting), part, _, _, slice, rfl,
    key, Rgb.parse?_text _⟩
  rw [jsonObject, slice]
  rfl

/-- All objects are read back, in the order of the highlights. -/
theorem exists_objects (scheme : Scheme) {text : List Char} {highlights : List Highlight}
    (inside : ∀ highlight ∈ highlights, highlight.span.LiesIn text) :
    ∃ writtens objects, highlights.mapM (jsonObject scheme text) = some writtens ∧
      (∀ written ∈ writtens, ∃ tail, skipBlanks written = '\x7b' :: tail) ∧
      (∀ nesting, List.Forall₂ (Reads (value? (nesting + 1))) writtens objects) ∧
      List.Forall₂ (Describes scheme text) objects highlights := by
  induction highlights with
  | nil => exact ⟨[], [], rfl, nofun, fun _ => .nil, .nil⟩
  | cons highlight highlights ih =>
    obtain ⟨first, later⟩ := List.forall_mem_cons.mp inside
    obtain ⟨part, slice⟩ := first.slice?
    obtain ⟨written, object, made, opens, reads, describes⟩ := jsonObject_read scheme slice
    obtain ⟨writtens, objects, mapped, all_open, all_read, all_describe⟩ := ih later
    refine ⟨written :: writtens, object :: objects, ?_, List.forall_mem_cons.mpr ⟨opens, all_open⟩,
      fun nesting => .cons (reads nesting) (all_read nesting), .cons describes all_describe⟩
    simp [List.mapM_cons, made, mapped]

theorem read?_array {writtens : List (List Char)} {objects : List Json} (nonempty : writtens ≠ [])
    (opens : ∀ written ∈ writtens, ∃ tail, skipBlanks written = '\x7b' :: tail)
    (reads : ∀ nesting, List.Forall₂ (Reads (value? (nesting + 1))) writtens objects) :
    read? (['[', '\n'] ++ [',', '\n'].intercalate writtens ++ ['\n', ']']) =
      some (.array objects) := by
  obtain ⟨first, writtens, rfl⟩ := List.exists_cons_of_ne_nil nonempty
  obtain ⟨tail, opens⟩ := opens first List.mem_cons_self
  have no_indent : ∀ c ∈ [], isBlank c = true := nofun
  have array (nesting : Nat) : elements? (value? (nesting + 1)) ']' ('\n' ::
      ([',', '\n'].intercalate (first :: writtens) ++ ['\n', ']'])) = some (objects, []) :=
    elements?_written rfl (by decide) no_indent [] opens (by decide) (reads nesting)
  have whole (lines : List Char) : ['[', '\n'] ++ lines ++ ['\n', ']'] =
      '[' :: '\n' :: (lines ++ ['\n', ']']) := by simp
  rw [whole, read?, skipBlanks_other rfl, List.length_cons, List.length_cons, value?, array]
  rfl

end Json

/-- The JSON of highlights, which lie in the text in any order, is a value and a line break. The
value is an array with an object for each highlight in turn, which describes it. -/
theorem json_read_back (scheme : Scheme) {text : List Char} {highlights : List Highlight}
    (inside : ∀ highlight ∈ highlights, highlight.span.LiesIn text) :
    ∃ written objects, Render.json scheme text highlights = some (written ++ ['\n']) ∧
      Json.read? written = some (.array objects) ∧
      List.Forall₂ (Json.Describes scheme text) objects highlights := by
  obtain ⟨writtens, objects, mapped, opens, reads, describe⟩ := Json.exists_objects scheme inside
  by_cases none : writtens = []
  · subst none
    obtain rfl := List.forall₂_nil_left_iff.mp (reads 0)
    exact ⟨['[', ']'], [], by rw [Render.json, mapped]; rfl, rfl, describe⟩
  · refine ⟨_, objects, ?_, Json.read?_array none opens reads, describe⟩
    simp [Render.json, mapped, none]

/-- Highlights that overlap and go back, one of them empty, in a text of a quotation mark, a letter of
two bytes and a line break. -/
theorem json_read_back_of_overlap :
    (∀ highlight ∈ ([⟨⟨1, 4⟩, .string⟩, ⟨⟨0, 3⟩, .keyword⟩, ⟨⟨4, 4⟩, .comment⟩] : List Highlight),
      highlight.span.LiesIn ['"', 'λ', '\n']) ∧
    ∃ written objects,
      Render.json (.ofTheme .light) ['"', 'λ', '\n']
        [⟨⟨1, 4⟩, .string⟩, ⟨⟨0, 3⟩, .keyword⟩, ⟨⟨4, 4⟩, .comment⟩] = some (written ++ ['\n']) ∧
      Json.read? written = some (.array objects) ∧
      List.Forall₂ (Json.Describes (.ofTheme .light) ['"', 'λ', '\n']) objects
        [⟨⟨1, 4⟩, .string⟩, ⟨⟨0, 3⟩, .keyword⟩, ⟨⟨4, 4⟩, .comment⟩] := by
  have inside : ∀ highlight ∈
      ([⟨⟨1, 4⟩, .string⟩, ⟨⟨0, 3⟩, .keyword⟩, ⟨⟨4, 4⟩, .comment⟩] : List Highlight),
      highlight.span.LiesIn ['"', 'λ', '\n'] := by
    have first : IsCut ['"', 'λ', '\n'] 0 := ⟨[], _, rfl, rfl⟩
    have second : IsCut ['"', 'λ', '\n'] 1 := ⟨['"'], _, rfl, rfl⟩
    have third : IsCut ['"', 'λ', '\n'] 3 := ⟨['"', 'λ'], _, rfl, rfl⟩
    have last : IsCut ['"', 'λ', '\n'] 4 := ⟨['"', 'λ', '\n'], [], rfl, rfl⟩
    simp only [List.forall_mem_cons]
    exact ⟨⟨second, last, by decide⟩, ⟨first, third, by decide⟩, ⟨last, last, by decide⟩, nofun⟩
  exact ⟨inside, json_read_back (.ofTheme .light) inside⟩

end HaskellHighlight
