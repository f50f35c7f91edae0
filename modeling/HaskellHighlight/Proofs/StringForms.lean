import HaskellHighlight.Toml.Writer

/-! Strings are read as they were written. Over a written string the reader stands after quotation
marks in a row or in the text between them, and never inside of an escape; what it holds back are
those marks. -/
namespace HaskellHighlight.Toml

private theorem le_longestRun (c : Char) (current : Nat) (text : List Char) :
    current ≤ longestRun c current text := by
  induction text generalizing current with
  | nil => exact Nat.le_refl _
  | cons d rest ih =>
    rw [longestRun]
    split
    · exact Nat.le_trans (Nat.le_succ _) (ih _)
    · exact Nat.le_max_left _ _

private theorem isTextChar_of_not_control {c : Char} (control : isControl c = false)
    (feed : c ≠ '\n') : StringForm.isTextChar c = true := by
  simp only [isControl, feed, StringForm.isTextChar, ne_eq, not_false_eq_true, decide_true,
    Bool.and_true, Bool.or_eq_false_iff, Bool.and_eq_false_iff, decide_eq_false_iff_not,
    Bool.or_eq_true, Bool.and_eq_true, decide_eq_true_eq, Decidable.not_not, Nat.not_lt] at control ⊢
  exact control.1.elim (fun printed => .inr ⟨printed, control.2⟩) .inl

namespace StringForm
variable {form : StringForm} {mode next : Mode} {c : Char} {quotes : Nat}
  {added rest piece text written : List Char}

theorem body_cons (unclosed : form.isClosed (some c) mode = false)
    (step : form.step c mode = some (added, next)) (rest : List Char) :
    form.body mode (c :: rest) =
      (form.body next rest).map fun read => (added ++ read.1, read.2) := by
  rw [body, unclosed, if_neg Bool.false_ne_true, step]
  cases read : form.body next rest <;> simp [read]

/-- What the reader adds over a piece of a string, and where it then stands. There is nothing if
the string ends inside the piece or the piece cannot be read. -/
def run (form : StringForm) : Mode → List Char → Option (List Char × Mode)
  | mode, [] => some ([], mode)
  | mode, c :: rest =>
    if form.isClosed (some c) mode then none
    else do
      let (added, mode) ← form.step c mode
      let (text, last) ← form.run mode rest
      return (added ++ text, last)

/-- The reader goes over a piece whatever comes behind it. -/
theorem body_append {last : Mode} (h : form.run mode piece = some (added, last))
    (tail : List Char) :
    form.body mode (piece ++ tail) =
      (form.body last tail).map fun read => (added ++ read.1, read.2) := by
  induction piece generalizing mode added with
  | nil =>
    obtain ⟨rfl, rfl⟩ : [] = added ∧ mode = last := by simpa [run] using h
    simp
  | cons c rest ih =>
    rw [run] at h
    split at h
    · contradiction
    rename_i unclosed
    simp only [Option.bind_eq_bind, Option.bind_eq_some_iff, Option.pure_def, Option.some.injEq,
      Prod.exists, Prod.mk.injEq] at h
    obtain ⟨first, next, step, text, _, later, rfl, rfl⟩ := h
    rw [List.cons_append, body_cons (by simpa using unclosed) step, ih later, Option.map_map]
    simp [Function.comp_def]

def marks (form : StringForm) : List Char :=
  List.replicate (if form.isMultiline then 3 else 1) form.quote

def after : Nat → Mode
  | 0 => .text
  | count + 1 => .quotes (count + 1)

theorem body_after_quote (h : form.isMultiline = true ∨ quotes = 0) (rest : List Char) :
    form.body (after quotes) (form.quote :: rest) = form.body (after (quotes + 1)) rest := by
  have unclosed : form.isClosed (some form.quote) (after quotes) = false := by
    rcases h with several | rfl
    · cases quotes <;> simp [after, isClosed, several]
    · rfl
  have step : form.step form.quote (after quotes) = some ([], after (quotes + 1)) := by
    cases quotes <;> simp [after, step, textStep]
  rw [body_cons unclosed step]
  cases form.body (after (quotes + 1)) rest <;> simp

private theorem quotes_of_le_maxQuotes (h : quotes ≤ form.maxQuotes) :
    quotes ≤ 2 ∧ (form.isMultiline = true ∨ quotes = 0) := by
  rw [maxQuotes] at h
  split at h
  · exact ⟨h, .inl ‹_›⟩
  · exact ⟨Nat.le_trans h (Nat.zero_le 2), .inr (Nat.le_zero.mp h)⟩

theorem body_after_other (h : quotes ≤ form.maxQuotes) (other : c ≠ form.quote)
    (rest : List Char) :
    form.body (after quotes) (c :: rest) = (form.body .text (c :: rest)).map fun read =>
      (List.replicate quotes form.quote ++ read.1, read.2) := by
  obtain ⟨le, several⟩ := quotes_of_le_maxQuotes h
  cases quotes with
  | zero => simp [after]
  | succ count =>
    have unclosed : form.isClosed (some c) (after (count + 1)) = false := by
      simp only [after, isClosed, several.resolve_right (Nat.succ_ne_zero _), Bool.not_true,
        Bool.false_or, Bool.and_eq_false_iff, decide_eq_false_iff_not]
      omega
    have at_quotes : form.step c (after (count + 1)) = (form.step c .text).map fun found =>
        (List.replicate (count + 1) form.quote ++ found.1, found.2) := by
      simp [after, step, other]
    cases here : form.step c .text with
    | none =>
      rw [here] at at_quotes
      rw [body, body, unclosed, at_quotes, here]
      rfl
    | some found =>
      rw [here] at at_quotes
      rw [body_cons unclosed at_quotes, body_cons rfl here, Option.map_map]
      simp [Function.comp_def]

private theorem body_closed (enough : form.isMultiline = true → 3 ≤ quotes + 1)
    (ends : rest.head? ≠ some form.quote) :
    form.body (after (quotes + 1)) rest =
      (form.closing? (after (quotes + 1))).map (·, rest) := by
  cases rest with
  | nil => rfl
  | cons d rest =>
    have next : some d ≠ some form.quote := ends
    rw [body, if_pos]
    cases several : form.isMultiline with
    | false => simp [after, isClosed, several]
    | true =>
      have enough := enough several
      simpa [after, isClosed, next, several] using enough

/-- A string ends with its marks where no further mark follows. Marks in a row before them belong
to it. -/
theorem body_marks (h : quotes ≤ form.maxQuotes) (ends : rest.head? ≠ some form.quote) :
    form.body (after quotes) (form.marks ++ rest) =
      some (List.replicate quotes form.quote, rest) := by
  obtain ⟨le, -⟩ := quotes_of_le_maxQuotes h
  cases several : form.isMultiline with
  | true =>
    have three : form.marks = [form.quote, form.quote, form.quote] := by simp [marks, several]
    have bounds : 3 ≤ quotes + 2 + 1 ∧ quotes + 2 + 1 ≤ 5 := by omega
    rw [three, List.cons_append, List.cons_append, List.cons_append, List.nil_append,
      body_after_quote (.inl several), body_after_quote (.inl several),
      body_after_quote (.inl several), body_closed (fun _ => bounds.1) ends, after, closing?, if_pos several,
      decide_eq_true bounds.1, decide_eq_true bounds.2]
    rfl
  | false =>
    have one : form.marks = [form.quote] := by simp [marks, several]
    obtain rfl : quotes = 0 := by simpa [maxQuotes, several] using h
    rw [one, List.singleton_append, body_after_quote (.inr rfl), body_closed (by simp [several]) ends]
    simp [after, closing?, several]

/-- How a text is written in a form after so many quotation marks in a row: marks as they are, up
to the number that the form allows, and every other character by a piece that stands for it. -/
inductive Shows (form : StringForm) : Nat → List Char → List Char → Prop where
  | nil (quotes : Nat) : Shows form quotes [] []
  | quote {quotes : Nat} {text written : List Char} (h : quotes < form.maxQuotes)
      (rest : Shows form (quotes + 1) text written) :
      Shows form quotes (form.quote :: text) (form.quote :: written)
  | piece {c d : Char} {tail text written : List Char}
      (h : form.run .text (d :: tail) = some ([c], .text))
      (head : d ≠ form.quote ∧ d ≠ '\r' ∧ (d = '\n' → c = '\n'))
      (rest : Shows form 0 text written) (quotes : Nat) :
      Shows form quotes (c :: text) (d :: tail ++ written)

/-- The reader goes over a written text to the end of the string. -/
theorem Shows.body_eq (h : Shows form quotes text written) (le : quotes ≤ form.maxQuotes)
    (ends : rest.head? ≠ some form.quote) :
    form.body (after quotes) (written ++ form.marks ++ rest) =
      some (List.replicate quotes form.quote ++ text, rest) := by
  induction h with
  | nil => rw [List.nil_append, body_marks le ends, List.append_nil]
  | quote lt _ ih =>
    rw [List.cons_append, List.cons_append,
      body_after_quote ((quotes_of_le_maxQuotes lt).2.imp_right fun none_before => by omega),
      ih lt, List.replicate_succ', List.append_assoc, List.singleton_append]
  | @piece c d tail text written found head _ quotes ih =>
    have whole : d :: tail ++ written ++ form.marks ++ rest =
        d :: tail ++ (written ++ form.marks ++ rest) := by simp
    rw [whole, List.cons_append, body_after_other le head.1, ← List.cons_append,
      body_append found, show Mode.text = after 0 from rfl, ih (Nat.zero_le _)]
    rfl

theorem ne_return_of_not_control (control : isControl c = false) : c ≠ '\r' := by
  rintro rfl
  exact absurd control (by decide)

private theorem run_plain (other : c ≠ form.quote) (slash : c = '\\' → form.escapes = false)
    (feed : c = '\n' → form.isMultiline = true) (control : isControl c = false) :
    form.run .text [c] = some ([c], .text) := by
  have ret := ne_return_of_not_control control
  have step : form.textStep c = some ([c], .text) := by
    rw [textStep, if_neg other, if_neg (by simpa using slash)]
    by_cases line : c = '\n'
    · rw [if_pos (by simpa [line] using feed line), line]
    · rw [if_neg (by simp [line]), if_neg (by simp [ret]),
        if_pos (isTextChar_of_not_control control line)]
  have unclosed : form.isClosed (some c) .text = false := rfl
  rw [run, unclosed, if_neg Bool.false_ne_true, StringForm.step, step]
  rfl

private theorem escape?_bound (h : form.escape? c = some piece) : c.toNat < 128 := by
  refine Nat.lt_of_not_le fun above => ?_
  have large (d : Char) (small : d.toNat < 128) : c ≠ d := by
    rintro rfl
    omega
  have control : isControl c = false := by
    simp only [isControl, Bool.or_eq_false_iff, Bool.and_eq_false_iff, decide_eq_false_iff_not]
    omega
  rw [escape?, if_neg (large _ (by decide)), if_neg (large _ (by decide)),
    if_neg (large _ (by decide)), if_neg (large _ (by decide)), if_neg (large _ (by decide)),
    if_neg (large _ (by decide)), control, if_neg Bool.false_ne_true] at h
  contradiction

private theorem run_escape_below :
    ∀ form ∈ [basic, multilineBasic], ∀ code < 128,
      (form.escape? (Char.ofNat code)).all (fun piece =>
        form.run .text piece = some ([Char.ofNat code], .text) && piece.head? = some '\\') := by
  decide +kernel

private theorem run_escape (escapes : form.escapes = true) (h : form.escape? c = some piece) :
    form.run .text piece = some ([c], .text) ∧ piece.head? = some '\\' := by
  have mem : form ∈ [basic, multilineBasic] := by cases form <;> simp_all [StringForm.escapes]
  have checked := run_escape_below form mem c.toNat (escape?_bound h)
  simpa [Char.ofNat_toNat, h] using checked

private theorem escape?_eq_none (h : form.escape? c = none) :
    c ≠ '\\' ∧ (c = '\n' → form.isMultiline = true) ∧ isControl c = false := by
  refine ⟨?_, ?_, Bool.eq_false_iff.mpr fun control => ?_⟩
  · rintro rfl
    cases form <;> exact absurd h (by decide)
  · rintro rfl
    cases form <;> first | rfl | exact absurd h (by decide)
  · have feed : c ≠ '\n' := by
      rintro rfl
      exact absurd control (by decide)
    have made : (form.escape? c).isSome = true := by
      simp only [escape?, feed, control, if_false, if_true]
      repeat' split
      all_goals rfl
    rw [h] at made
    contradiction

/-- With escapes every text can be written. -/
theorem shows_escaped (escapes : form.escapes = true) (quotes : Nat) (text : List Char) :
    form.Shows quotes text (form.escaped quotes text) := by
  have double : form.quote = '"' := by cases form <;> simp_all [StringForm.escapes, quote]
  have slash_head {c : Char} : '\\' ≠ form.quote ∧ '\\' ≠ '\r' ∧ ('\\' = '\n' → c = '\n') := by
    rw [double]
    exact ⟨by decide, by decide, fun same => absurd same (by decide)⟩
  induction text generalizing quotes with
  | nil => exact .nil quotes
  | cons c rest ih =>
    rw [escaped]
    split
    · subst c
      split
      · rename_i lt
        exact double ▸ .quote lt (ih _)
      · have read : form.run .text ['\\', '"'] = some (['"'], .text) := by
          cases form <;> first | rfl | contradiction
        exact .piece read slash_head (ih 0) quotes
    · rename_i other
      split
      · rename_i piece found
        obtain ⟨read, head⟩ := run_escape escapes found
        obtain ⟨tail, rfl⟩ := List.head?_eq_some_iff.mp head
        exact .piece read slash_head (ih 0) quotes
      · rename_i none_made
        obtain ⟨slash, feed, control⟩ := escape?_eq_none none_made
        have read := run_plain (double ▸ other) (fun h => absurd h slash) feed control
        exact .piece read ⟨double ▸ other, ne_return_of_not_control control, id⟩ (ih 0) quotes

/-- Without escapes a text can be written if it has no controls, no line break on a single line, and
not too many marks in a row. -/
theorem shows_raw (escapes : form.escapes = false) {text : List Char}
    (control : ∀ c ∈ text, isControl c = false)
    (feed : '\n' ∈ text → form.isMultiline = true)
    (bound : longestRun form.quote quotes text ≤ form.maxQuotes) :
    form.Shows quotes text text := by
  induction text generalizing quotes with
  | nil => exact .nil quotes
  | cons c rest ih =>
    have control_rest := fun d mem => control d (List.mem_cons_of_mem _ mem)
    have feed_rest := fun mem => feed (List.mem_cons_of_mem _ mem)
    rw [longestRun] at bound
    split at bound
    · subst c
      exact .quote (Nat.lt_of_lt_of_le (Nat.lt_succ_self _) (Nat.le_trans (le_longestRun _ _ _) bound))
        (ih control_rest feed_rest bound)
    · rename_i other
      have control := control c List.mem_cons_self
      have read := run_plain other (fun _ => escapes) (fun h => feed (h ▸ List.mem_cons_self)) control
      exact .piece read ⟨other, ne_return_of_not_control control, id⟩
        (ih control_rest feed_rest (Nat.le_trans (Nat.le_max_right _ _) bound)) quotes

/-- Texts that a form can show. -/
def Fits (form : StringForm) (text : List Char) : Prop :=
  form.escapes = false →
    (∀ c ∈ text, isControl c = false) ∧ ('\n' ∈ text → form.isMultiline = true) ∧
      longestRun form.quote 0 text ≤ form.maxQuotes

def content (form : StringForm) (text : List Char) : List Char :=
  if form.escapes then form.escaped 0 text else text

theorem Fits.shows (h : form.Fits text) : form.Shows 0 text (form.content text) := by
  rw [content]
  split
  · exact shows_escaped ‹_› 0 text
  · rename_i escapes
    obtain ⟨control, feed, bound⟩ := h (by simpa using escapes)
    exact shows_raw (by simpa using escapes) control feed bound

theorem Fits.body_eq (h : form.Fits text) (ends : rest.head? ≠ some form.quote) :
    form.body .text (form.content text ++ form.marks ++ rest) = some (text, rest) :=
  h.shows.body_eq (Nat.zero_le _) ends

theorem write_eq (form : StringForm) (text : List Char) :
    form.write text = form.marks ++
      (if form.isMultiline && text.contains '\n' then ['\n'] else []) ++
        form.content text ++ form.marks := by
  simp only [write, marks, content]
  split <;> simp

theorem write_starts (form : StringForm) (text : List Char) :
    ∃ tail, form.write text = form.quote :: tail := by
  rw [write_eq]
  cases form <;> exact ⟨_, rfl⟩

/-- The chosen form can show the text. -/
theorem ofText_fits (text : List Char) : (ofText text).Fits text := by
  have control (plain : ¬ text.any isControl = true) : ∀ c ∈ text, isControl c = false := by
    simpa using plain
  intro escapes
  revert escapes
  simp only [ofText, Bool.and_eq_true, Bool.not_eq_true', decide_eq_true_eq]
  split
  · nofun
  split
  · rename_i single
    exact fun _ => ⟨control (by simp [single.1.1]), fun line => by simp_all, Nat.le_of_eq single.1.2⟩
  split
  · nofun
  split
  · rename_i several
    exact fun _ => ⟨control (by simp [several.1]), fun _ => rfl, several.2⟩
  split <;> nofun

private theorem read?_of_single (line : form.isMultiline = false)
    (single : ∀ tail, text ≠ form.quote :: form.quote :: tail) :
    read? (form.quote :: text) = singleLine? (form.quote :: text) := by
  cases form with
  | multilineBasic | multilineLiteral => contradiction
  | basic | literal =>
    rw [read?.eq_def]
    split
    · simp_all [quote]
    · simp_all [quote]
    · rfl

private theorem read?_of_triple (several : form.isMultiline = true) (text : List Char) :
    read? (form.marks ++ text) = form.body .text (dropLineBreak text) := by
  cases form <;> first | rfl | contradiction

/-- What is written starts with a line break only if the text holds one, and on a single line it
does not start with a mark. -/
theorem Shows.head_ne (h : form.Shows quotes text written) {d : Char}
    (head : written.head? = some d) :
    d ≠ '\r' ∧ ('\n' ∉ text → d ≠ '\n') ∧ (form.isMultiline = false → d ≠ form.quote) := by
  cases h with
  | nil => contradiction
  | quote lt =>
    obtain rfl := Option.some.inj head
    refine ⟨by cases form <;> decide, fun _ => by cases form <;> decide, fun line => ?_⟩
    simp [maxQuotes, line] at lt
  | piece _ first =>
    obtain rfl := Option.some.inj head
    exact ⟨first.2.1, fun none_inside same => none_inside (first.2.2 same ▸ List.mem_cons_self),
      fun _ => first.1⟩

private theorem dropLineBreak_of_head
    (h : ∀ d, text.head? = some d → d ≠ '\n' ∧ d ≠ '\r') : dropLineBreak text = text := by
  rw [dropLineBreak.eq_def]
  split
  · exact absurd rfl (h _ rfl).1
  · exact absurd rfl (h _ rfl).2
  · rfl

theorem write_eq_of_line (line : form.isMultiline = false) (text : List Char) :
    form.write text = form.quote :: (form.content text ++ [form.quote]) := by
  simp [write_eq, line, marks]

/-- A string on a single line is read as it was written. -/
theorem singleLine?_write (line : form.isMultiline = false) (fits : form.Fits text)
    (ends : rest.head? ≠ some form.quote) :
    singleLine? (form.write text ++ rest) = some (text, rest) := by
  have one : form.marks = [form.quote] := by simp [marks, line]
  rw [write_eq_of_line line, ← one, List.cons_append]
  cases form with
  | basic | literal => exact fits.body_eq ends
  | multilineBasic | multilineLiteral => contradiction

/-- A string in any form is read as it was written. -/
theorem read?_write (fits : form.Fits text) (ends : rest.head? ≠ some form.quote) :
    read? (form.write text ++ rest) = some (text, rest) := by
  cases several : form.isMultiline with
  | false =>
    rw [← singleLine?_write several fits ends, write_eq_of_line several, List.cons_append]
    refine read?_of_single several fun tail two => ?_
    rw [List.append_assoc, List.singleton_append] at two
    cases shown : form.content text with
    | nil =>
      rw [shown, List.nil_append] at two
      exact ends (by rw [(List.cons.inj two).2, List.head?_cons])
    | cons d written =>
      rw [shown, List.cons_append] at two
      have first : (form.content text).head? = some d := by rw [shown, List.head?_cons]
      exact (fits.shows.head_ne first).2.2 several (List.cons.inj two).1
  | true =>
    have written : form.write text ++ rest = form.marks ++
        ((if text.contains '\n' then ['\n'] else []) ++
          (form.content text ++ form.marks ++ rest)) := by
      simp [write_eq, several]
    rw [written, read?_of_triple several, ← fits.body_eq ends]
    congr 1
    split
    · rfl
    · rename_i none_inside
      rw [List.nil_append]
      apply dropLineBreak_of_head
      intro d head
      cases shown : form.content text with
      | nil =>
        obtain rfl : form.quote = d := by simpa [shown, marks, several] using head
        cases form <;> decide
      | cons e written =>
        obtain rfl : e = d := by simpa [shown] using head
        have first : (form.content text).head? = some e := by rw [shown, List.head?_cons]
        obtain ⟨ret, feed, -⟩ := fits.shows.head_ne first
        exact ⟨feed (by simpa using none_inside), ret⟩

end StringForm

end HaskellHighlight.Toml
