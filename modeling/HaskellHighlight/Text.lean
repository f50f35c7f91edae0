import HaskellHighlight.Unicode.CharClass

/-! Texts as lists of characters: the digits of numbers, offsets that count UTF-8 bytes, and text in
quotes on one line. -/
namespace HaskellHighlight.Text

def decimal (n : Nat) : List Char := Nat.toDigits 10 n

def hexDigit (n : Nat) : Char := Char.ofNat (if n < 10 then 0x30 + n else 0x57 + n)

def hexDigits : Nat → Nat → List Char
  | 0, _ => []
  | width + 1, n => hexDigits width (n / 16) ++ [hexDigit (n % 16)]

/-- The hexadecimal digits of a code point without leading zeros; none for zero. -/
def codePointDigits (code : Nat) : List Char := (hexDigits 6 code).dropWhile (· = '0')

def byteLength : List Char → Nat
  | [] => 0
  | c :: rest => c.utf8Size + byteLength rest

@[simp] theorem byteLength_append (a b : List Char) :
    byteLength (a ++ b) = byteLength a + byteLength b := by
  induction a with
  | nil => simp [byteLength]
  | cons c a ih => simp [byteLength, ih, Nat.add_assoc]

/-- Cuts a text after so many bytes. There is no cut inside a character or past the end. -/
def splitBytes? : Nat → List Char → Option (List Char × List Char)
  | 0, text => some ([], text)
  | _ + 1, [] => none
  | n + 1, c :: rest =>
    if c.utf8Size ≤ n + 1 then
      (splitBytes? (n + 1 - c.utf8Size) rest).map fun cut => (c :: cut.1, cut.2)
    else none

/-- The part of a text from byte offset `start` up to byte offset `stop`. There is none when an
offset lies inside a character or past the end, or when the offsets are out of order. -/
def slice? (text : List Char) (start stop : Nat) : Option (List Char) := do
  if stop < start then none
  let (_, after) ← splitBytes? start text
  let (part, _) ← splitBytes? (stop - start) after
  return part

/-- A cut at `n` bytes leaves parts that make up the text, the first of them `n` bytes long. -/
theorem splitBytes?_eq_some_iff {n : Nat} {text before after : List Char} :
    splitBytes? n text = some (before, after) ↔ before ++ after = text ∧ byteLength before = n := by
  induction text generalizing n before after with
  | nil =>
    cases n with
    | zero => cases before <;> simp [splitBytes?, byteLength, eq_comm]
    | succ n =>
      cases before with
      | nil => simp [splitBytes?, byteLength]
      | cons c before => simp [splitBytes?]
  | cons c text ih =>
    have size := c.utf8Size_pos
    cases n with
    | zero =>
      cases before with
      | nil => simp [splitBytes?, byteLength, eq_comm]
      | cons d before =>
        have := d.utf8Size_pos
        simp only [splitBytes?, byteLength, Option.some.injEq, Prod.mk.injEq, reduceCtorEq,
          false_and, false_iff, not_and]
        omega
    | succ n =>
      rw [splitBytes?]
      cases before with
      | nil => split <;> simp [byteLength]
      | cons d before =>
        split
        · rw [Option.map_eq_some_iff]
          constructor
          · rintro ⟨⟨a, b⟩, cut, eq⟩
            obtain ⟨join, len⟩ := ih.1 cut
            simp only [Prod.mk.injEq, List.cons.injEq] at eq
            obtain ⟨⟨rfl, rfl⟩, rfl⟩ := eq
            exact ⟨by rw [List.cons_append, join], by rw [byteLength]; omega⟩
          · rintro ⟨join, len⟩
            simp only [List.cons_append, List.cons.injEq] at join
            obtain ⟨rfl, join⟩ := join
            rw [byteLength] at len
            exact ⟨(before, after), ih.2 ⟨join, by omega⟩, rfl⟩
        · simp only [reduceCtorEq, List.cons_append, List.cons.injEq, byteLength, false_iff]
          rintro ⟨⟨rfl, -⟩, len⟩
          omega

/-- Whether a character could not be seen by itself: it joins the one before it, or it has no
printed form, or none that has to be shown. -/
def isUnseen (c : Char) : Bool :=
  Unicode.isExtendingMark c || Unicode.isDefaultIgnorable c || Unicode.isUnprintable c

def quotedChar (c : Char) : List Char :=
  if c = '\x00' then ['\\', '0']
  else if c = '\t' then ['\\', 't']
  else if c = '\n' then ['\\', 'n']
  else if c = '\r' then ['\\', 'r']
  else if c = '"' then ['\\', '"']
  else if c = '\\' then ['\\', '\\']
  else if isUnseen c then
    ['\\', 'u', '\x7b'] ++ codePointDigits c.toNat ++ ['\x7d']
  else [c]

def quoted (text : List Char) : List Char := '"' :: text.flatMap quotedChar ++ ['"']

end HaskellHighlight.Text
