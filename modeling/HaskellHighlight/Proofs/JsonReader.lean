import HaskellHighlight.Proofs.QuotedText

/-! A reader of JSON, and how it goes over blanks, escapes by code unit and whole numbers. Readers
give a value and the text behind it. Loops take a number of rounds that the length of their text
bounds. -/
namespace HaskellHighlight

/-- A JSON value. A number is `digits * 10 ^ exponent`, and the members of an object stand in the
order of the text. -/
inductive Json where
  | null
  | boolean (value : Bool)
  | number (digits exponent : Int)
  | string (text : String)
  | array (items : List Json)
  | object (members : List (String × Json))

namespace Json
open Text

def isBlank (c : Char) : Bool := c = ' ' || c = '\t' || c = '\n' || c = '\r'

def skipBlanks (text : List Char) : List Char := text.dropWhile isBlank

def simpleEscape? : Char → Option Char
  | '"' => some '"'
  | '\\' => some '\\'
  | '/' => some '/'
  | 'b' => some '\x08'
  | 'f' => some '\x0c'
  | 'n' => some '\n'
  | 'r' => some '\r'
  | 't' => some '\t'
  | _ => none

/-- Where the reading of a string stands: in the text, behind a backslash, among the digits of an
escape, or behind the first half of a surrogate pair. A half that came before is kept until its
other half was read. -/
inductive Mode where
  | text
  | escape (high : Option Nat)
  | code (high : Option Nat) (left value : Nat)
  | half (high : Nat)
  deriving DecidableEq, Repr

def isHighHalf (unit : Nat) : Bool := 0xD800 ≤ unit && unit < 0xDC00

def isLowHalf (unit : Nat) : Bool := 0xDC00 ≤ unit && unit < 0xE000

/-- The character of a code unit, with the first half of its pair in front if it is a second half. -/
def unitChar? : Option Nat → Nat → Option Char
  | none, unit => Toml.StringForm.scalar? unit
  | some high, unit =>
    if isLowHalf unit then
      Toml.StringForm.scalar? (0x10000 + 0x400 * (high - 0xD800) + (unit - 0xDC00))
    else none

def stringFrom : Mode → List Char → Option (List Char × List Char)
  | _, [] => none
  | .text, c :: rest =>
    if c = '"' then some ([], rest)
    else if c = '\\' then stringFrom (.escape none) rest
    else if c.toNat < 0x20 then none
    else readBefore c (stringFrom .text rest)
  | .escape high, c :: rest =>
    if c = 'u' then stringFrom (.code high 4 0) rest
    else match high, simpleEscape? c with
      | none, some d => readBefore d (stringFrom .text rest)
      | _, _ => none
  | .half high, c :: rest => if c = '\\' then stringFrom (.escape (some high)) rest else none
  | .code high left value, c :: rest =>
    match Unicode.hexDigitValue? c with
    | none => none
    | some digit =>
      let unit := 16 * value + digit
      if 1 < left then stringFrom (.code high (left - 1) unit) rest
      else if high.isNone && isHighHalf unit then stringFrom (.half unit) rest
      else match unitChar? high unit with
        | some d => readBefore d (stringFrom .text rest)
        | none => none

def digits? (text : List Char) : Option (List Char × List Char) :=
  let digits := text.takeWhile Char.isDigit
  if digits.isEmpty then none else some (digits, text.drop digits.length)

def whole? : List Char → Option (List Char × List Char)
  | '0' :: rest => some (['0'], rest)
  | text => digits? text

def fraction? : List Char → Option (List Char × List Char)
  | '.' :: rest => digits? rest
  | text => some ([], text)

def sign : List Char → Bool × List Char
  | '-' :: rest => (true, rest)
  | '+' :: rest => (false, rest)
  | text => (false, text)

def signed (negative : Bool) (magnitude : Nat) : Int := if negative then -magnitude else magnitude

def exponent? (text : List Char) : Option (Int × List Char) :=
  match text with
  | [] => some (0, [])
  | c :: rest =>
    if c = 'e' || c = 'E' then
      let (negative, rest) := sign rest
      (digits? rest).map fun (digits, rest) =>
        (signed negative (Nat.ofDigitChars 10 digits 0), rest)
    else some (0, text)

def minus : List Char → Bool × List Char
  | '-' :: rest => (true, rest)
  | text => (false, text)

def number? (text : List Char) : Option (Json × List Char) := do
  let (negative, rest) := minus text
  let (whole, rest) ← whole? rest
  let (places, rest) ← fraction? rest
  let (exponent, rest) ← exponent? rest
  let digits := signed negative (Nat.ofDigitChars 10 (whole ++ places) 0)
  return (.number digits (exponent - places.length), rest)

section series
variable {α : Type} (item? : List Char → Option (α × List Char)) (close : Char)

def series? : Nat → List Char → Option (List α × List Char)
  | 0, _ => none
  | rounds + 1, text => do
    let (item, rest) ← item? (skipBlanks text)
    match skipBlanks rest with
    | [] => none
    | c :: rest =>
      if c = ',' then
        let (items, rest) ← series? rounds rest
        return (item :: items, rest)
      else if c = close then return ([item], rest)
      else none

def elements? (text : List Char) : Option (List α × List Char) :=
  match skipBlanks text with
  | [] => none
  | c :: rest => if c = close then some ([], rest) else series? item? close text.length text

end series

def member? (value? : List Char → Option (Json × List Char)) :
    List Char → Option ((String × Json) × List Char)
  | '"' :: rest => do
    let (name, rest) ← stringFrom .text rest
    match skipBlanks rest with
    | ':' :: rest =>
      let (value, rest) ← value? (skipBlanks rest)
      return ((String.ofList name, value), rest)
    | _ => none
  | _ => none

/-- Reads a value in which arrays and objects nest no deeper than `nesting`. -/
def value? : Nat → List Char → Option (Json × List Char)
  | _, '"' :: rest =>
    (stringFrom .text rest).map fun (text, rest) => (.string (String.ofList text), rest)
  | nesting, '[' :: rest => match nesting with
    | 0 => none
    | nesting + 1 =>
      (elements? (value? nesting) ']' rest).map fun (items, rest) => (.array items, rest)
  | nesting, '\x7b' :: rest => match nesting with
    | 0 => none
    | nesting + 1 => (elements? (member? (value? nesting)) '\x7d' rest).map fun (members, rest) =>
        (.object members, rest)
  | _, 'n' :: 'u' :: 'l' :: 'l' :: rest => some (.null, rest)
  | _, 't' :: 'r' :: 'u' :: 'e' :: rest => some (.boolean true, rest)
  | _, 'f' :: 'a' :: 'l' :: 's' :: 'e' :: rest => some (.boolean false, rest)
  | _, text => number? text

/-- The value that a whole text stands for. Values cannot nest deeper than the text is long. -/
def read? (text : List Char) : Option Json :=
  match value? text.length (skipBlanks text) with
  | some (value, rest) => if (skipBlanks rest).isEmpty then some value else none
  | none => none

example : read? " [-12.50e+1, \"\\ud83d\\ude00\\/\", \x7b\"a\" : [ ], \"b\":null\x7d, true ]\n".toList =
    some (.array [.number (-1250) (-1), .string "😀/", .object [("a", .array []), ("b", .null)],
      .boolean true]) := by rfl

example : ["[1,]", "01", "\"\\ud83d\"", "\"\n\"", "[1 2]", "\x7b1:2\x7d", "[", "1."].map
    (fun text => (read? text.toList).isNone) = List.replicate 8 true := by decide +kernel

theorem skipBlanks_blank {c : Char} (blank : isBlank c = true) (rest : List Char) :
    skipBlanks (c :: rest) = skipBlanks rest := List.dropWhile_cons_of_pos blank

theorem skipBlanks_other {c : Char} (other : isBlank c = false) (rest : List Char) :
    skipBlanks (c :: rest) = c :: rest := List.dropWhile_cons_of_neg (by simp [other])

theorem skipBlanks_blanks {blanks : List Char} (all : ∀ c ∈ blanks, isBlank c = true)
    (rest : List Char) : skipBlanks (blanks ++ rest) = skipBlanks rest :=
  List.dropWhile_append_of_pos all

/-- Over digits that are not the last of an escape the value of the code unit grows by them. -/
theorem stringFrom_digits {digits : List Char}
    (hex : ∀ c ∈ digits, ∃ value < 16, c = hexDigit value) (high : Option Nat) {left : Nat}
    (more : digits.length < left) (value : Nat) (rest : List Char) :
    stringFrom (.code high left value) (digits ++ rest) =
      stringFrom (.code high (left - digits.length) (hexValue value digits)) rest := by
  induction digits generalizing left value with
  | nil => rfl
  | cons c digits ih =>
    obtain ⟨⟨digit, below, rfl⟩, later⟩ := List.forall_mem_cons.mp hex
    rw [List.length_cons] at more
    have found := hexDigitValue?_hexDigit below
    rw [List.cons_append, stringFrom]
    simp only [found]
    rw [if_pos (by omega), ih later (by omega), List.length_cons, hexValue, hexValue,
      List.foldl_cons, found, Option.getD_some, Nat.add_comm digits.length, Nat.sub_sub]

/-- Four digits of a code unit stand for the character with this code point. -/
theorem stringFrom_codeUnit {c : Char} (below : c.toNat < 16 ^ 4) (rest : List Char) :
    stringFrom (.code none 4 0) (hexDigits 4 c.toNat ++ rest) =
      readBefore c (stringFrom .text rest) := by
  have front : ∀ d ∈ hexDigits 3 (c.toNat / 16), ∃ value < 16, d = hexDigit value := fun _ =>
    isHexDigit_of_mem_hexDigits
  have last := hexDigitValue?_hexDigit (Nat.mod_lt c.toNat (by decide : 0 < 16))
  have value : 16 * (c.toNat / 16 % 16 ^ 3) + c.toNat % 16 = c.toNat := by omega
  have whole : isHighHalf c.toNat = false := by
    have valid : c.toNat < 0xD800 ∨ 0xDFFF < c.toNat ∧ c.toNat < 0x110000 := c.valid
    simp only [isHighHalf, Bool.and_eq_false_iff, decide_eq_false_iff_not]
    omega
  rw [hexDigits, List.append_assoc, stringFrom_digits front none (by simp [length_hexDigits]),
    hexValue_hexDigits, length_hexDigits, List.singleton_append, stringFrom]
  simp only [last, value, whole, unitChar?, scalar?_toNat]
  rfl

def EndsItem (rest : List Char) : Prop := ∀ c ∈ rest.head?, c = ',' ∨ c = '\n'

theorem EndsItem.endsNumber {rest : List Char} (h : EndsItem rest) : EndsNumber rest := by
  intro c head
  rcases h c head with rfl | rfl <;> decide

theorem digits?_decimal (n : Nat) {rest : List Char} (ends : EndsNumber rest) :
    digits? (decimal n ++ rest) = some (decimal n, rest) := by
  simp only [digits?, takeWhile_decimal n ends, List.drop_left, List.isEmpty_iff, decimal_ne_nil,
    if_false]

theorem whole?_decimal (n : Nat) {rest : List Char} (ends : EndsNumber rest) :
    whole? (decimal n ++ rest) = some (decimal n, rest) := by
  rcases Nat.eq_zero_or_pos n with rfl | positive
  · rfl
  · have first := head?_decimal positive
    obtain ⟨c, digits, eq⟩ := List.exists_cons_of_ne_nil (decimal_ne_nil n)
    have found := digits?_decimal n ends
    rw [eq] at first found ⊢
    rw [List.cons_append, whole?, ← List.cons_append, found]
    rintro tail same
    exact first (congrArg List.head? same)

/-- What starts with a digit is read as a number without a sign. -/
theorem value?_digit {c : Char} (digit : c.isDigit = true) (nesting : Nat) (rest : List Char) :
    value? nesting (c :: rest) = number? (c :: rest) ∧ minus (c :: rest) = (false, c :: rest) := by
  have starts : ['-', '"', '[', '\x7b', 'n', 't', 'f'].all (fun d => !d.isDigit) = true := by decide
  have other : c ∉ ['-', '"', '[', '\x7b', 'n', 't', 'f'] := fun mem => by
    simpa [digit] using List.all_eq_true.mp starts c mem
  simp only [List.mem_cons, not_or] at other
  constructor
  · rw [value?] <;> simp [other]
  · rw [minus]
    simp [other]

/-- The digits of a whole number are read back if the item ends behind them. -/
theorem value?_decimal (nesting n : Nat) {rest : List Char} (ends : EndsItem rest) :
    value? nesting (decimal n ++ rest) = some (.number n 0, rest) := by
  have no_point : fraction? rest = some ([], rest) ∧ exponent? rest = some (0, rest) := by
    cases rest with
    | nil => exact ⟨rfl, rfl⟩
    | cons c rest => rcases ends c rfl with rfl | rfl <;> exact ⟨rfl, rfl⟩
  have whole := whole?_decimal n ends.endsNumber
  have shown := ofDigitChars_decimal n
  obtain ⟨c, digits, eq⟩ := List.exists_cons_of_ne_nil (decimal_ne_nil n)
  have digit : c.isDigit = true := isDigit_of_mem_decimal (eq ▸ List.mem_cons_self)
  rw [eq, List.cons_append] at whole
  rw [eq] at shown
  obtain ⟨plain, unsigned⟩ := value?_digit digit nesting (digits ++ rest)
  rw [eq, List.cons_append, plain, number?, unsigned]
  simp [whole, no_point, shown, signed]

end Json

end HaskellHighlight
