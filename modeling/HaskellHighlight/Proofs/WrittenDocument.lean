import HaskellHighlight.Config.Basic
import HaskellHighlight.Proofs.StringForms

/-! Documents are read as they were written. Of each reader one lemma says that it goes over what the
writer of the same thing wrote and leaves what comes behind it, provided that this does not start
like a continuation. -/
namespace HaskellHighlight.Toml

/-! ### Names -/

def StartsText (c : Char) : Prop := isBlank c = false ∧ c ≠ '#' ∧ c ≠ '\n' ∧ c ≠ '\r'

instance (c : Char) : Decidable (StartsText c) := inferInstanceAs (Decidable (_ ∧ _))

def StartsName (c : Char) : Prop := isBareChar c = true ∨ c = '"' ∨ c = '\''

instance (c : Char) : Decidable (StartsName c) := inferInstanceAs (Decidable (_ ∨ _))

namespace StartsName
variable {c : Char}

theorem of_quote (form : StringForm) : StartsName form.quote := by
  cases form <;> exact .inr (by decide)

theorem ne_of_not {d : Char} (h : StartsName c) (other : ¬ StartsName d) : c ≠ d := by
  rintro rfl
  exact other h

theorem startsText (h : StartsName c) : StartsText c := by
  refine ⟨Bool.eq_false_iff.mpr fun blank => ?_, h.ne_of_not (by decide), h.ne_of_not (by decide),
    h.ne_of_not (by decide)⟩
  rcases (by simpa [isBlank] using blank : c = ' ' ∨ c = '\t') with rfl | rfl
  · exact absurd h (by decide)
  · exact absurd h (by decide)

theorem ne_bracket (h : StartsName c) : c ≠ '[' := h.ne_of_not (by decide)

end StartsName

def EndsName (rest : List Char) : Prop := ∀ c, rest.head? = some c → ¬ StartsName c

namespace EndsName
variable {rest : List Char}

theorem cons {c : Char} (h : ¬ StartsName c) (rest : List Char) : EndsName (c :: rest) := by
  intro d head
  obtain rfl := Option.some.inj head
  exact h

theorem no_quote (h : EndsName rest) (form : StringForm) : rest.head? ≠ some form.quote :=
  fun head => h _ head (.of_quote form)

theorem no_more (h : EndsName rest) : rest.takeWhile isBareChar = [] := by
  cases rest with
  | nil => rfl
  | cons c rest => exact List.takeWhile_cons_of_neg fun more => h c rfl (.inl more)

end EndsName

private theorem longestRun_of_not_mem {c : Char} {text : List Char} (h : c ∉ text) :
    longestRun c 0 text = 0 := by
  induction text with
  | nil => rfl
  | cons d rest ih =>
    obtain ⟨other, later⟩ := List.ne_and_not_mem_of_not_mem_cons h
    rw [longestRun, if_neg (Ne.symm other), ih later]
    rfl

/-- A name is written bare or as a string on a single line. -/
theorem writeName_cases (name : List Char) :
    (name ≠ [] ∧ (∀ c ∈ name, isBareChar c = true) ∧ writeName name = name) ∨
      ∃ form : StringForm, form.isMultiline = false ∧ form.Fits name ∧
        writeName name = form.write name := by
  simp only [writeName, Bool.and_eq_true, Bool.not_eq_true']
  split
  · rename_i bare
    exact .inl ⟨by simpa using bare.1, by simpa using bare.2, rfl⟩
  split
  · exact .inr ⟨.basic, rfl, nofun, rfl⟩
  split
  · rename_i literal
    refine .inr ⟨.literal, rfl, fun _ => ⟨by simpa using literal.1.1, fun feed => ?_, ?_⟩, rfl⟩
    · simp_all
    · have none_inside : '\'' ∉ name := by simpa using literal.2
      exact Nat.le_of_eq (longestRun_of_not_mem none_inside)
  · exact .inr ⟨.basic, rfl, nofun, rfl⟩

theorem writeName_starts (name : List Char) :
    ∃ c tail, writeName name = c :: tail ∧ StartsName c := by
  rcases writeName_cases name with ⟨nonempty, bare, eq⟩ | ⟨form, line, -, eq⟩
  · obtain ⟨c, tail, rfl⟩ := List.exists_cons_of_ne_nil nonempty
    exact ⟨c, tail, eq, .inl (bare c List.mem_cons_self)⟩
  · exact ⟨form.quote, _, eq.trans (StringForm.write_eq_of_line line name), .of_quote form⟩

private theorem singleLine?_of_bare {c : Char} (bare : isBareChar c = true) (rest : List Char) :
    StringForm.singleLine? (c :: rest) = none := by
  rw [StringForm.singleLine?.eq_def]
  split
  · rename_i same
    obtain rfl := (List.cons.inj same).1
    exact absurd bare (by decide)
  · rename_i same
    obtain rfl := (List.cons.inj same).1
    exact absurd bare (by decide)
  · rfl

theorem name?_writeName (name : List Char) {rest : List Char} (ends : EndsName rest) :
    name? (writeName name ++ rest) = some (String.ofList name, rest) := by
  rcases writeName_cases name with ⟨nonempty, bare, eq⟩ | ⟨form, line, fits, eq⟩
  · have no_string : StringForm.singleLine? (name ++ rest) = none := by
      obtain ⟨c, tail, rfl⟩ := List.exists_cons_of_ne_nil nonempty
      exact singleLine?_of_bare (bare c List.mem_cons_self) (tail ++ rest)
    have run : (name ++ rest).takeWhile isBareChar = name := by
      rw [List.takeWhile_append_of_pos bare, ends.no_more, List.append_nil]
    simp [eq, name?, no_string, run, nonempty]
  · rw [eq, name?, StringForm.singleLine?_write line fits (ends.no_quote form)]

theorem skipBlanks_of_not_blank {c : Char} (h : isBlank c = false) (rest : List Char) :
    skipBlanks (c :: rest) = c :: rest := List.dropWhile_cons_of_neg (by simp [h])

theorem path?_writeName (name : List Char) (c : Char) (rest : List Char) (ends : ¬ StartsName c)
    (single : (skipBlanks (c :: rest)).head? ≠ some '.') :
    path? (writeName name ++ c :: rest) =
      some (⟨[], String.ofList name⟩, skipBlanks (c :: rest)) := by
  have read := name?_writeName name (EndsName.cons ends rest)
  obtain ⟨d, tail, eq, starts⟩ := writeName_starts name
  rw [eq] at read ⊢
  have one : names? (d :: tail ++ c :: rest).length (d :: tail ++ c :: rest) =
      some ([String.ofList name], skipBlanks (c :: rest)) := by
    rw [List.cons_append, List.length_cons, names?, skipBlanks_of_not_blank starts.startsText.1,
      ← List.cons_append, read]
    simp only [Option.bind_eq_bind, Option.bind_some]
    split
    · rename_i dotted
      exact absurd (by rw [dotted, List.head?_cons]) single
    · rfl
  rw [path?, one]
  rfl

/-! ### Values -/

theorem value?_writeString (nesting : Nat) (text rest : List Char)
    (ends : EndsName rest) :
    value? nesting (writeString text ++ rest) =
      some (.scalar (.string (String.ofList text)), rest) := by
  have read := StringForm.read?_write (StringForm.ofText_fits text) (ends.no_quote _)
  rw [writeString]
  generalize StringForm.ofText text = form at read
  obtain ⟨tail, eq⟩ := form.write_starts text
  rw [eq, List.cons_append] at read ⊢
  have scalar : value? nesting (form.quote :: (tail ++ rest)) =
      (StringForm.read? (form.quote :: (tail ++ rest))).map fun read =>
        (.scalar (.string (String.ofList read.1)), read.2) := by
    cases form <;> cases nesting <;> rfl
  rw [scalar, read]
  rfl

private theorem skipLines_blanks {blanks : List Char} (h : ∀ b ∈ blanks, isBlank b = true) {c : Char}
    (starts : StartsText c) (rounds : Nat) (rest : List Char) :
    skipLines (rounds + 1) (blanks ++ c :: rest) = some (c :: rest) := by
  obtain ⟨blank, hash, feed, ret⟩ := starts
  have skipped : skipBlanks (blanks ++ c :: rest) = c :: rest := by
    rw [skipBlanks, List.dropWhile_append_of_pos h]
    exact skipBlanks_of_not_blank blank rest
  rw [skipLines, skipped]
  split
  · exact absurd (List.cons.inj ‹_›).1 hash
  · exact absurd (List.cons.inj ‹_›).1 feed
  · exact absurd (List.cons.inj ‹_›).1 ret
  · rfl

private theorem skipSpace_of_starts {c : Char} (starts : StartsText c) (rest : List Char) :
    skipSpace (c :: rest) = some (c :: rest) := by
  have blanks := skipLines_blanks (List.forall_mem_nil _) starts (c :: rest).length rest
  exact blanks

private theorem skipSpace_line (blanks : List Char) (h : ∀ b ∈ blanks, isBlank b = true) {c : Char}
    (starts : StartsText c) (rest : List Char) :
    skipSpace ('\n' :: (blanks ++ c :: rest)) = some (c :: rest) := by
  have blanks := skipLines_blanks h starts (blanks ++ c :: rest).length rest
  rw [skipSpace, List.length_cons]
  exact blanks

private theorem writeString_starts (text : List Char) :
    ∃ c tail, writeString text = c :: tail ∧ StartsName c := by
  obtain ⟨tail, eq⟩ := (StringForm.ofText text).write_starts text
  exact ⟨_, tail, eq, .of_quote _⟩

private theorem head_ne_bracket {c : Char} (h : StartsName c) (rest : List Char) :
    (c :: rest).head? ≠ some ']' := fun same =>
  h.ne_of_not (by decide) (Option.some.inj same)

section items
variable {value? : List Char → Option (Value × List Char)} {item : Value}
  {text front rest : List Char}

private theorem items?_comma (space : skipSpace text = some front) (more : front.head? ≠ some ']')
    (read : value? front = some (item, ',' :: rest)) (rounds : Nat) :
    items? value? (rounds + 1) text =
      (items? value? rounds rest).map fun read => (item :: read.1, read.2) := by
  have comma := skipSpace_of_starts (c := ',') (by decide) rest
  rw [items?, space]
  simp only [Option.bind_eq_bind, Option.bind_some]
  split
  · exact absurd rfl more
  · simp only [read, comma, Option.bind_some]
    cases items? value? rounds rest <;> rfl

private theorem items?_last (space : skipSpace text = some front) (more : front.head? ≠ some ']')
    (read : value? front = some (item, ']' :: rest)) (rounds : Nat) :
    items? value? (rounds + 1) text = some ([item], rest) := by
  have bracket := skipSpace_of_starts (c := ']') (by decide) rest
  rw [items?, space]
  simp only [Option.bind_eq_bind, Option.bind_some]
  split
  · exact absurd rfl more
  · simp only [read, bracket, Option.bind_some]
    rfl

private theorem items?_end (space : skipSpace text = some (']' :: rest)) (rounds : Nat) :
    items? value? (rounds + 1) text = some ([], rest) := by
  rw [items?, space]
  rfl

end items

private theorem length_le_length_flatMap {α β : Type} (items : List α) (f : α → List β)
    (h : ∀ item, 0 < (f item).length) : items.length ≤ (items.flatMap f).length := by
  induction items with
  | nil => exact Nat.le_refl 0
  | cons item items ih =>
    have := h item
    rw [List.flatMap_cons, List.length_append, List.length_cons]
    omega

private def itemLine (text : List Char) : List Char :=
  "    ".toList ++ writeString text ++ [',', '\n']

private theorem items?_lines (nesting : Nat) (texts : List (List Char)) (rest : List Char)
    {rounds : Nat} (enough : texts.length < rounds) :
    items? (value? nesting) rounds ('\n' :: (texts.flatMap itemLine ++ ']' :: rest)) =
      some (texts.map fun text => .scalar (.string (String.ofList text)), rest) := by
  induction texts generalizing rounds with
  | nil =>
    obtain ⟨n, rfl⟩ : ∃ n, rounds = n + 1 := ⟨rounds - 1, by simp at enough; omega⟩
    exact items?_end (skipSpace_line [] (by simp) (by decide) rest) n
  | cons text texts ih =>
    obtain ⟨n, rfl⟩ : ∃ n, rounds = n + 1 := ⟨rounds - 1, by simp at enough; omega⟩
    obtain ⟨c, tail, eq, starts⟩ := writeString_starts text
    generalize behind : texts.flatMap itemLine ++ ']' :: rest = later at ih
    have read := value?_writeString nesting text (',' :: '\n' :: later) (.cons (by decide) _)
    have space := skipSpace_line "    ".toList (by simp [isBlank]) starts.startsText
      (tail ++ ',' :: '\n' :: later)
    have whole : '\n' :: ((text :: texts).flatMap itemLine ++ ']' :: rest) =
        '\n' :: ("    ".toList ++ c :: (tail ++ ',' :: '\n' :: later)) := by
      simp [← behind, itemLine, eq]
    rw [eq, List.cons_append] at read
    rw [whole, items?_comma space (head_ne_bracket starts _) read, ih (by simpa using enough)]
    rfl

theorem value?_writeStrings (nesting : Nat) (texts : List (List Char)) (rest : List Char) :
    value? (nesting + 1) (writeStrings texts ++ rest) =
      some (.array (texts.map fun text => .scalar (.string (String.ofList text))), rest) := by
  rw [writeStrings.eq_def]
  split
  · rw [List.cons_append, List.singleton_append, value?,
      items?_end (skipSpace_of_starts (by decide) rest)]
    rfl
  · rename_i text
    obtain ⟨c, tail, eq, starts⟩ := writeString_starts text
    have read := value?_writeString nesting text (']' :: rest) (.cons (by decide) _)
    rw [eq, List.cons_append] at read
    have whole : '[' :: writeString text ++ [']'] ++ rest = '[' :: (c :: (tail ++ ']' :: rest)) := by
      simp [eq]
    rw [whole, value?, items?_last (skipSpace_of_starts starts.startsText _)
      (head_ne_bracket starts _) read]
    rfl
  · have whole : ['[', '\n'] ++ texts.flatMap itemLine ++ [']'] ++ rest =
        '[' :: ('\n' :: (texts.flatMap itemLine ++ ']' :: rest)) := by
      simp
    have enough := length_le_length_flatMap texts itemLine (by simp [itemLine])
    change value? (nesting + 1) (['[', '\n'] ++ texts.flatMap itemLine ++ [']'] ++ rest) = _
    rw [whole, value?, items?_lines]
    · rfl
    · simp only [List.length_cons, List.length_append]
      omega

/-! ### Statements -/

/-- `written` stands for a value at the end of a line. -/
def Writes (written : List Char) (value : Value) : Prop :=
  ∀ rest, value? maxNesting (skipBlanks (' ' :: (written ++ '\n' :: rest))) =
    some (value, '\n' :: rest)

theorem writes_string (text : List Char) :
    Writes (writeString text) (.scalar (.string (String.ofList text))) := by
  intro rest
  have read := value?_writeString maxNesting text ('\n' :: rest) (.cons (by decide) rest)
  obtain ⟨c, tail, eq, starts⟩ := writeString_starts text
  rw [eq, List.cons_append] at read ⊢
  exact (congrArg (value? maxNesting) (skipBlanks_of_not_blank starts.startsText.1 _)).trans read

theorem writes_boolean (value : Bool) :
    Writes (Config.writeBoolean value) (.scalar (.boolean value)) := by
  cases value <;> exact fun _ => rfl

theorem writes_strings (texts : List (List Char)) :
    Writes (writeStrings texts)
      (.array (texts.map fun text => .scalar (.string (String.ofList text)))) := by
  intro rest
  have read := value?_writeStrings (maxNesting - 1) texts ('\n' :: rest)
  obtain ⟨tail, eq⟩ : ∃ tail, writeStrings texts = '[' :: tail := by
    rw [writeStrings.eq_def]
    split <;> exact ⟨_, rfl⟩
  rw [eq] at read ⊢
  exact read

private theorem keyValue?_writeEntry (name : List Char) {written : List Char} {value : Value}
    (h : Writes written value) (rest : List Char) :
    keyValue? (value? maxNesting) (writeEntry name written ++ rest) =
      some ((⟨[], String.ofList name⟩, value), '\n' :: rest) := by
  have line : writeEntry name written ++ rest =
      writeName name ++ ' ' :: '=' :: ' ' :: (written ++ '\n' :: rest) := by
    simp [writeEntry]
  have path := path?_writeName name ' ' ('=' :: ' ' :: (written ++ '\n' :: rest)) (by decide)
    fun dot => absurd (Option.some.inj dot) (by decide : '=' ≠ '.')
  rw [line, keyValue?, path]
  change (value? maxNesting (skipBlanks (' ' :: (written ++ '\n' :: rest)))).bind _ = _
  rw [h]
  rfl

private theorem lineEnd?_break (rest : List Char) : lineEnd? ('\n' :: rest) = some rest := rfl

private theorem statement?_of_entry {c : Char} (other : c ≠ '[') {text rest after : List Char}
    {path : Path} {value : Value}
    (read : keyValue? (value? maxNesting) (c :: text) = some ((path, value), rest))
    (ended : lineEnd? rest = some after) :
    statement? (c :: text) = some (.entry path value, after) := by
  rw [statement?.eq_def]
  split
  · exact absurd (List.cons.inj ‹_›).1 other
  · exact absurd (List.cons.inj ‹_›).1 other
  · simp [read, ended]

private theorem statement?_of_table {c : Char} (other : c ≠ '[') {text rest after : List Char}
    {path : Path} (read : path? (c :: text) = some (path, ']' :: rest))
    (ended : lineEnd? rest = some after) :
    statement? ('[' :: c :: text) = some (.table path, after) := by
  rw [statement?.eq_def]
  split
  · rename_i same
    exact absurd (List.cons.inj (List.cons.inj same).2).1 other
  · rename_i same
    obtain rfl := (List.cons.inj same).2
    simp [read, char?, ended]
  · rename_i no_bracket
    exact absurd rfl (no_bracket _)

theorem statement?_writeEntry (name : List Char) {written : List Char} {value : Value}
    (h : Writes written value) (rest : List Char) :
    statement? (writeEntry name written ++ rest) =
      some (.entry ⟨[], String.ofList name⟩ value, rest) := by
  have read := keyValue?_writeEntry name h rest
  obtain ⟨c, tail, eq, starts⟩ := writeName_starts name
  obtain ⟨more, line⟩ : ∃ more, writeEntry name written ++ rest = c :: more := by
    rw [writeEntry, eq]
    exact ⟨_, rfl⟩
  rw [line] at read ⊢
  exact statement?_of_entry starts.ne_bracket read (lineEnd?_break rest)

theorem statement?_writeHeader (name : List Char) (rest : List Char) :
    statement? (writeHeader name ++ rest) = some (.table ⟨[], String.ofList name⟩, rest) := by
  have read := path?_writeName name ']' ('\n' :: rest) (by decide)
    fun dot => absurd (Option.some.inj dot) (by decide : ']' ≠ '.')
  obtain ⟨c, tail, eq, starts⟩ := writeName_starts name
  have line : writeHeader name ++ rest = '[' :: c :: (tail ++ ']' :: '\n' :: rest) := by
    simp [writeHeader, eq]
  rw [eq] at read
  rw [line]
  exact statement?_of_table starts.ne_bracket read (lineEnd?_break rest)

/-! ### Documents -/

/-- A text has these statements, however many rounds there are above its length. -/
def Reads (text : List Char) (statements : List Statement) : Prop :=
  ∀ rounds, text.length < rounds → statements? rounds text = some statements

namespace Reads
variable {text : List Char} {statements : List Statement}

theorem nil : Reads [] [] := by
  rintro (_ | rounds) enough
  · contradiction
  · rfl

theorem blank (h : Reads text statements) : Reads ('\n' :: text) statements := by
  rintro (_ | rounds) enough
  · contradiction
  · exact h rounds (Nat.lt_of_succ_lt_succ enough)

private theorem lineEnd?_of_startsText {c : Char} (h : StartsText c) (rest : List Char) :
    lineEnd? (c :: rest) = none := by
  obtain ⟨blank, hash, feed, ret⟩ := h
  have no_comment : skipComment (c :: rest) = c :: rest :=
    if_neg fun head => hash (Option.some.inj head)
  have no_break : lineBreak? (c :: rest) = none := by
    rw [lineBreak?.eq_def]
    split
    · exact absurd (List.cons.inj ‹_›).1 feed
    · exact absurd (List.cons.inj ‹_›).1 ret
    · rfl
  rw [lineEnd?, skipBlanks_of_not_blank blank, no_comment, no_break]
  rfl

private theorem statement {line : List Char} {c : Char} {tail : List Char} (starts : line = c :: tail)
    (first : StartsText c) {s : Statement} (read : statement? (line ++ text) = some (s, text))
    (h : Reads text statements) : Reads (line ++ text) (s :: statements) := by
  subst line
  rintro (_ | rounds) enough
  · contradiction
  · rw [List.cons_append] at read enough ⊢
    rw [statements?, lineEnd?_of_startsText first, skipBlanks_of_not_blank first.1, read,
      List.isEmpty_cons, if_neg Bool.false_ne_true]
    have later := h rounds (by simp at enough; omega)
    simp [later]

theorem entry (name : List Char) {written : List Char} {value : Value} (shows : Writes written value)
    (h : Reads text statements) :
    Reads (writeEntry name written ++ text)
      (.entry ⟨[], String.ofList name⟩ value :: statements) := by
  obtain ⟨c, tail, eq, starts⟩ := writeName_starts name
  have line : writeEntry name written = c :: (tail ++ [' ', '=', ' '] ++ written ++ ['\n']) := by
    rw [writeEntry, eq]
    rfl
  exact h.statement line starts.startsText (statement?_writeEntry name shows text)

theorem header (name : List Char) (h : Reads text statements) :
    Reads (writeHeader name ++ text) (.table ⟨[], String.ofList name⟩ :: statements) :=
  h.statement rfl (by decide) (statement?_writeHeader name text)

theorem entries {α : Type} (name written : α → List Char) (value : α → Value)
    (shows : ∀ item, Writes (written item) (value item)) (items : List α)
    (h : Reads text statements) :
    Reads (items.flatMap (fun item => writeEntry (name item) (written item)) ++ text)
      (items.map (fun item => .entry ⟨[], String.ofList (name item)⟩ (value item)) ++
        statements) := by
  induction items with
  | nil => exact h
  | cons item items ih =>
    rw [List.flatMap_cons, List.append_assoc]
    exact ih.entry (name item) (shows item)

/-- The tables of a document are those of its statements. -/
theorem document?_eq (h : Reads text statements) (unmarked : text.head? ≠ some '\uFEFF') :
    document? text = Entries.ofStatements statements := by
  rw [document?, if_neg unmarked]
  simp only [h _ (Nat.lt_succ_self _), Option.bind_eq_bind, Option.bind_some]

end Reads

end HaskellHighlight.Toml
