import HaskellHighlight.Proofs.WrittenDigits
import HaskellHighlight.Text
import HaskellHighlight.Toml.StringForm

/-! Quoted text is read back as the text that was quoted, and lies on one line. -/
namespace HaskellHighlight.Text

/-- Where the reading of quoted text stands: in the text, behind a backslash, behind the letter of
an escape by code point, or behind so many of its digits with such a value. -/
inductive QuoteMode where
  | text
  | escape
  | brace
  | code (count value : Nat)
  deriving DecidableEq, Repr

def simpleEscape? : Char → Option Char
  | '0' => some '\x00'
  | 't' => some '\t'
  | 'n' => some '\n'
  | 'r' => some '\r'
  | '\'' => some '\''
  | '"' => some '"'
  | '\\' => some '\\'
  | _ => none

def readBefore (c : Char) (read : Option (List Char × List Char)) :
    Option (List Char × List Char) := read.map fun (text, rest) => (c :: text, rest)

def unquoteFrom : QuoteMode → List Char → Option (List Char × List Char)
  | _, [] => none
  | .text, c :: rest =>
    if c = '"' then some ([], rest)
    else if c = '\\' then unquoteFrom .escape rest
    else readBefore c (unquoteFrom .text rest)
  | .escape, c :: rest =>
    if c = 'u' then unquoteFrom .brace rest
    else match simpleEscape? c with
      | some d => readBefore d (unquoteFrom .text rest)
      | none => none
  | .brace, c :: rest => if c = '\x7b' then unquoteFrom (.code 0 0) rest else none
  | .code count value, c :: rest =>
    if c = '\x7d' then
      match Toml.StringForm.scalar? value with
      | some d => if 1 ≤ count && count ≤ 6 then readBefore d (unquoteFrom .text rest) else none
      | none => none
    else match Unicode.hexDigitValue? c with
      | some digit => unquoteFrom (.code (count + 1) (16 * value + digit)) rest
      | none => none

def unquote? : List Char → Option (List Char × List Char)
  | '"' :: rest => unquoteFrom .text rest
  | _ => none

theorem scalar?_toNat (c : Char) : Toml.StringForm.scalar? c.toNat = some c := by
  have valid : c.toNat.isValidChar := c.valid
  have same := Char.ofNat_toNat c
  rw [Char.ofNat, dif_pos valid] at same
  rw [Toml.StringForm.scalar?, dif_pos valid, same]

/-- Over digits the value of a code point grows by them. -/
theorem unquoteFrom_digits {digits : List Char}
    (hex : ∀ c ∈ digits, ∃ value < 16, c = hexDigit value) (count value : Nat)
    (rest : List Char) :
    unquoteFrom (.code count value) (digits ++ rest) =
      unquoteFrom (.code (count + digits.length) (hexValue value digits)) rest := by
  induction digits generalizing count value with
  | nil => rfl
  | cons c digits ih =>
    obtain ⟨⟨digit, below, rfl⟩, later⟩ := List.forall_mem_cons.mp hex
    have other : hexDigit digit ≠ '\x7d' := by
      have all : ∀ digit < 16, hexDigit digit ≠ '\x7d' := by decide
      exact all digit below
    have found := hexDigitValue?_hexDigit below
    rw [List.cons_append, unquoteFrom, if_neg other]
    simp only [found]
    rw [ih later, List.length_cons, hexValue, hexValue, List.foldl_cons, found, Option.getD_some,
      Nat.add_right_comm, Nat.add_assoc]

theorem unquoteFrom_codePoint {c : Char} (other : c ≠ '\x00') (rest : List Char) :
    unquoteFrom (.code 0 0) (codePointDigits c.toNat ++ '\x7d' :: rest) =
      readBefore c (unquoteFrom .text rest) := by
  have positive : 0 < c.toNat := Nat.pos_of_ne_zero fun zero => other (Char.toNat_inj.mp zero)
  have below : c.toNat < 16 ^ 6 := by
    have valid : c.toNat.isValidChar := c.valid
    omega
  obtain ⟨value, low, high⟩ := codePointDigits_spec positive below
  rw [unquoteFrom_digits fun _ => isHexDigit_of_mem_codePointDigits, value, Nat.zero_add,
    unquoteFrom, if_pos rfl]
  simp only [scalar?_toNat, low, high, decide_true, Bool.and_self, if_true]

/-- What is written for a character: an escape of one letter, an escape by code point, or the
character itself where it is neither a mark nor unseen. -/
theorem quotedChar_cases (c : Char) :
    (∃ d ∈ ['0', 't', 'n', 'r', '"', '\\'], simpleEscape? d = some c ∧
      quotedChar c = ['\\', d]) ∨
    (c ≠ '\x00' ∧
      quotedChar c = ['\\', 'u', '\x7b'] ++ codePointDigits c.toNat ++ ['\x7d']) ∨
    (c ≠ '"' ∧ c ≠ '\\' ∧ isUnseen c = false ∧ quotedChar c = [c]) := by
  have letter (d : Char) (known : d ∈ ['0', 't', 'n', 'r', '"', '\\'])
      (stands : simpleEscape? d = some c) : ∃ e ∈ ['0', 't', 'n', 'r', '"', '\\'],
        simpleEscape? e = some c ∧ ['\\', d] = ['\\', e] := ⟨d, known, stands, rfl⟩
  rw [quotedChar]
  split
  · subst c; exact .inl (letter '0' (by decide) rfl)
  rename_i null
  split
  · subst c; exact .inl (letter 't' (by decide) rfl)
  split
  · subst c; exact .inl (letter 'n' (by decide) rfl)
  split
  · subst c; exact .inl (letter 'r' (by decide) rfl)
  split
  · subst c; exact .inl (letter '"' (by decide) rfl)
  rename_i mark
  split
  · subst c; exact .inl (letter '\\' (by decide) rfl)
  rename_i slash
  split
  · exact .inr (.inl ⟨null, rfl⟩)
  · rename_i seen
    exact .inr (.inr ⟨mark, slash, by simpa using seen, rfl⟩)

theorem unquoteFrom_quotedChar (c : Char) (rest : List Char) :
    unquoteFrom .text (quotedChar c ++ rest) = readBefore c (unquoteFrom .text rest) := by
  rcases quotedChar_cases c with ⟨d, known, stands, eq⟩ | ⟨null, eq⟩ | ⟨mark, slash, -, eq⟩
  · have other : d ≠ 'u' := by
      rintro rfl
      exact absurd known (by decide)
    rw [eq, List.cons_append, List.singleton_append, unquoteFrom, if_neg (by decide), if_pos rfl,
      unquoteFrom, if_neg other]
    simp only [stands]
  · rw [eq, List.append_assoc, List.append_assoc]
    exact unquoteFrom_codePoint null rest
  · rw [eq, List.singleton_append, unquoteFrom, if_neg mark, if_neg slash]

/-- Every text is read back from its quoted form, whatever comes behind it. -/
theorem unquote?_quoted (text rest : List Char) :
    unquote? (quoted text ++ rest) = some (text, rest) := by
  have inside : unquoteFrom .text (text.flatMap quotedChar ++ '"' :: rest) = some (text, rest) := by
    induction text with
    | nil => rfl
    | cons c text ih =>
      rw [List.flatMap_cons, List.append_assoc, unquoteFrom_quotedChar, ih]
      rfl
  have whole : quoted text ++ rest = '"' :: (text.flatMap quotedChar ++ '"' :: rest) := by
    simp [quoted]
  rw [whole]
  exact inside

/-- The characters at which Unicode lets a line end. -/
def lineBreaks : List Char :=
  ['\n', '\x0b', '\x0c', '\r', '\x85', '\u2028', '\u2029']

def OneLine (text : List Char) : Prop := ∀ c ∈ text, c ∉ lineBreaks

instance (text : List Char) : Decidable (OneLine text) :=
  decidable_of_iff (text.all (· ∉ lineBreaks) = true) (by simp [OneLine])

theorem OneLine.append {front back : List Char} (h : OneLine front) (h' : OneLine back) :
    OneLine (front ++ back) := List.forall_mem_append.mpr ⟨h, h'⟩

private theorem isUnseen_of_lineBreak : lineBreaks.all isUnseen = true := by decide +kernel

theorem oneLine_quotedChar (c : Char) : OneLine (quotedChar c) := by
  rcases quotedChar_cases c with ⟨d, known, -, eq⟩ | ⟨-, eq⟩ | ⟨-, -, seen, eq⟩
  · have escapes : ['0', 't', 'n', 'r', '"', '\\'].all (fun d => OneLine ['\\', d]) = true := by
      decide
    exact eq ▸ of_decide_eq_true (List.all_eq_true.mp escapes d known)
  · have opening : OneLine ['\\', 'u', '\x7b'] := by decide
    have closing : OneLine ['\x7d'] := by decide
    have digits : ∀ value < 16, hexDigit value ∉ lineBreaks := by decide
    rw [eq]
    refine (OneLine.append opening fun c mem => ?_).append closing
    obtain ⟨value, below, rfl⟩ := isHexDigit_of_mem_codePointDigits mem
    exact digits value below
  · rw [eq]
    intro d mem break_inside
    obtain rfl := List.mem_singleton.mp mem
    rw [List.all_eq_true.mp isUnseen_of_lineBreak d break_inside] at seen
    contradiction

theorem oneLine_quoted (text : List Char) : OneLine (quoted text) := by
  have mark : OneLine ['"'] := by decide
  have inside : OneLine (text.flatMap quotedChar) := by
    intro d mem
    obtain ⟨c, -, written⟩ := List.mem_flatMap.mp mem
    exact oneLine_quotedChar c d written
  exact (OneLine.append mark inside).append mark

example : unquote? (quoted "a\"\\\n\x07\u0301é".toList) = some ("a\"\\\n\x07\u0301é".toList, []) :=
  by decide +kernel

end HaskellHighlight.Text
