import HaskellHighlight.Text
import HaskellHighlight.Unicode.CharClass
import Mathlib.Algebra.Group.Nat.Defs

/-! Numbers are read back from their digits, decimal or hexadecimal. -/
namespace HaskellHighlight.Text

def number? (text : List Char) : Option (Nat × List Char) :=
  let digits := text.takeWhile Char.isDigit
  if digits.isEmpty then none
  else some (Nat.ofDigitChars 10 digits 0, text.drop digits.length)

def EndsNumber (rest : List Char) : Prop := ∀ c ∈ rest.head?, c.isDigit = false

theorem EndsNumber.cons {c : Char} (other : c.isDigit = false) (rest : List Char) :
    EndsNumber (c :: rest) := by
  intro d head
  obtain rfl := Option.some.inj head
  exact other

theorem isDigit_of_mem_decimal {n : Nat} {c : Char} (mem : c ∈ decimal n) : c.isDigit = true :=
  Nat.isDigit_of_mem_toDigits (by decide) (by decide) mem

/-- Where a number ends, its digits are all that is there. -/
theorem takeWhile_decimal (n : Nat) {rest : List Char} (ends : EndsNumber rest) :
    (decimal n ++ rest).takeWhile Char.isDigit = decimal n := by
  have stops : rest.takeWhile Char.isDigit = [] := by
    cases rest with
    | nil => rfl
    | cons c rest => exact List.takeWhile_cons_of_neg (by simp [ends c rfl])
  rw [List.takeWhile_append_of_pos fun _ => isDigit_of_mem_decimal, stops, List.append_nil]

theorem decimal_ne_nil (n : Nat) : decimal n ≠ [] := Nat.toDigits_ne_nil

theorem ofDigitChars_decimal (n : Nat) : Nat.ofDigitChars 10 (decimal n) 0 = n :=
  Nat.ofDigitChars_ten_toDigits

theorem number?_decimal (n : Nat) {rest : List Char} (ends : EndsNumber rest) :
    number? (decimal n ++ rest) = some (n, rest) := by
  simp only [number?, takeWhile_decimal n ends, ofDigitChars_decimal, List.drop_left,
    List.isEmpty_iff, decimal_ne_nil, if_false]

theorem head?_decimal {n : Nat} (positive : 0 < n) : (decimal n).head? ≠ some '0' := by
  induction n using Nat.strongRecOn with
  | ind n ih =>
    rw [decimal, Nat.toDigits_eq_if (by decide)]
    split
    · rename_i digit
      have first : ∀ n < 10, 0 < n → [n.digitChar].head? ≠ some '0' := by decide
      exact first n digit positive
    · rename_i more
      have tenth : 0 < n / 10 := by omega
      obtain ⟨c, tail, digits⟩ := List.exists_cons_of_ne_nil (Nat.toDigits_ne_nil (b := 10) (n := n / 10))
      have front := ih (n / 10) (by omega) tenth
      rw [decimal, digits] at front
      rw [digits]
      exact front

def hexValue (value : Nat) (digits : List Char) : Nat :=
  digits.foldl (fun value c => 16 * value + (Unicode.hexDigitValue? c).getD 0) value

theorem hexDigitValue?_hexDigit {value : Nat} (below : value < 16) :
    Unicode.hexDigitValue? (hexDigit value) = some value := by
  have all : ∀ value < 16, Unicode.hexDigitValue? (hexDigit value) = some value := by decide
  exact all value below

theorem isHexDigit_of_mem_hexDigits {width n : Nat} {c : Char} (mem : c ∈ hexDigits width n) :
    ∃ value < 16, c = hexDigit value := by
  induction width generalizing n with
  | zero => contradiction
  | succ width ih =>
    rw [hexDigits, List.mem_append, List.mem_singleton] at mem
    rcases mem with front | rfl
    · exact ih front
    · exact ⟨n % 16, Nat.mod_lt _ (by decide), rfl⟩

theorem length_hexDigits (width n : Nat) : (hexDigits width n).length = width := by
  induction width generalizing n with
  | zero => rfl
  | succ width ih => rw [hexDigits, List.length_append, ih, List.length_singleton]

/-- Digits of a fixed number give back what they can show. -/
theorem hexValue_hexDigits (width n : Nat) : hexValue 0 (hexDigits width n) = n % 16 ^ width := by
  induction width generalizing n with
  | zero => rw [Nat.pow_zero, Nat.mod_one, hexDigits, hexValue, List.foldl_nil]
  | succ width ih =>
    have last := hexDigitValue?_hexDigit (Nat.mod_lt n (by decide : 0 < 16))
    have front := ih (n / 16)
    rw [hexValue] at front ⊢
    rw [hexDigits, List.foldl_append, front, List.foldl_cons, List.foldl_nil, last,
      Option.getD_some, Nat.pow_succ', Nat.mod_mul, Nat.add_comm]

theorem hexValue_dropWhile (digits : List Char) :
    hexValue 0 (digits.dropWhile (· = '0')) = hexValue 0 digits := by
  induction digits with
  | nil => rfl
  | cons c digits ih =>
    rw [List.dropWhile_cons]
    split
    · rename_i zero
      obtain rfl : c = '0' := by simpa using zero
      rw [ih]
      rfl
    · rfl

theorem isHexDigit_of_mem_codePointDigits {code : Nat} {c : Char}
    (mem : c ∈ codePointDigits code) : ∃ value < 16, c = hexDigit value :=
  isHexDigit_of_mem_hexDigits ((List.dropWhile_suffix _).mem mem)

/-- A code point other than zero is given by one to six digits. -/
theorem codePointDigits_spec {code : Nat} (positive : 0 < code) (below : code < 16 ^ 6) :
    hexValue 0 (codePointDigits code) = code ∧ 1 ≤ (codePointDigits code).length ∧
      (codePointDigits code).length ≤ 6 := by
  have value : hexValue 0 (codePointDigits code) = code := by
    rw [codePointDigits, hexValue_dropWhile, hexValue_hexDigits, Nat.mod_eq_of_lt below]
  have kept : codePointDigits code <:+ hexDigits 6 code := List.dropWhile_suffix _
  refine ⟨value, List.length_pos_iff.mpr fun none => ?_, length_hexDigits 6 code ▸ kept.length_le⟩
  rw [none] at value
  exact Nat.ne_of_lt positive value

end HaskellHighlight.Text
