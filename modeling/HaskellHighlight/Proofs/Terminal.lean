import HaskellHighlight.File.Basic
import HaskellHighlight.Render

/-! What a terminal shows of the text that is sent to it. Of the control sequences it knows the two
that the highlighter writes. -/
namespace HaskellHighlight.Terminal

/-- A character as it is shown, and its colour if one is set. -/
structure Cell where
  char : Char
  color : Option Rgb
  deriving DecidableEq, Repr

def channel? (close : Char) (text : List Char) : Option (UInt8 × Nat) :=
  let digits := text.takeWhile Char.isDigit
  let value := Nat.ofDigitChars 10 digits 0
  if digits ≠ [] && value < 256 && (text.drop digits.length).head? = some close then
    some (UInt8.ofNat value, digits.length + 1)
  else none

/-- The control sequence at the front of a text: the colour that is set after it, and its length. -/
def sequence? : List Char → Option (Option Rgb × Nat)
  | '\x1b' :: '[' :: '0' :: 'm' :: _ => some (none, 4)
  | '\x1b' :: '[' :: '3' :: '8' :: ';' :: '2' :: ';' :: rest => do
    let (red, first) ← channel? ';' rest
    let (green, second) ← channel? ';' (rest.drop first)
    let (blue, third) ← channel? 'm' ((rest.drop first).drop second)
    return (some ⟨red, green, blue⟩, 7 + first + second + third)
  | _ => none

/-- What is shown of a text where `color` is set, after so many characters of a control sequence
that are still to come. -/
def display (color : Option Rgb) : Nat → List Char → List Cell
  | _, [] => []
  | skip + 1, _ :: rest => display color skip rest
  | 0, c :: rest =>
    match sequence? (c :: rest) with
    | some (next, length) => display next (length - 1) rest
    | none => ⟨c, color⟩ :: display color 0 rest

def read (bytes : ByteArray) : Except FileError (List Cell) :=
  (decodeUtf8 bytes).map fun text => display none 0 text.toList

theorem read_ofList (text : List Char) :
    read (String.ofList text).toUTF8 = .ok (display none 0 text) := by
  rw [read, decodeUtf8_toUTF8, Except.map, String.toList_ofList]

theorem display_skip (color : Option Rgb) (skip : Nat) (text : List Char) :
    display color skip text = display color 0 (text.drop skip) := by
  induction text generalizing skip with
  | nil => cases skip <;> rfl
  | cons c rest ih =>
    cases skip with
    | zero => rfl
    | succ skip => rw [display, List.drop_succ_cons, ih]

/-- A control sequence sets the colour and is not shown. -/
theorem display_sequence {color next : Option Rgb} {front rest : List Char} (h : front ≠ [])
    (known : sequence? (front ++ rest) = some (next, front.length)) :
    display color 0 (front ++ rest) = display next 0 rest := by
  obtain ⟨c, more, rfl⟩ := List.exists_cons_of_ne_nil h
  rw [List.cons_append] at known ⊢
  simp only [display, known]
  rw [List.length_cons, Nat.add_sub_cancel, display_skip, List.drop_left]

/-- Text without an escape character is shown as it is, in the colour that is set. -/
theorem display_plain (color : Option Rgb) {text : List Char} (h : '\x1b' ∉ text)
    (rest : List Char) :
    display color 0 (text ++ rest) = text.map (⟨·, color⟩) ++ display color 0 rest := by
  induction text with
  | nil => rfl
  | cons c text ih =>
    rw [List.mem_cons, not_or] at h
    have other : sequence? (c :: (text ++ rest)) = none := by
      unfold sequence?
      split
      · exact absurd (List.cons.inj ‹_›).1.symm h.1
      · exact absurd (List.cons.inj ‹_›).1.symm h.1
      · rfl
    simp only [List.cons_append, List.map_cons, display, other, ih h.2]

private theorem drop_decimal (n : Nat) (close : Char) (rest : List Char) :
    (Text.decimal n ++ close :: rest).drop ((Text.decimal n).length + 1) = rest := by
  rw [List.drop_length_add_append]
  rfl

theorem channel?_decimal {close : Char} (h : close.isDigit = false) (channel : UInt8)
    (rest : List Char) : channel? close (Text.decimal channel.toNat ++ close :: rest) =
      some (channel, (Text.decimal channel.toNat).length + 1) := by
  have digits : (Text.decimal channel.toNat ++ close :: rest).takeWhile Char.isDigit =
      Text.decimal channel.toNat := by
    rw [List.takeWhile_append_of_pos, List.takeWhile_cons_of_neg (by simp [h]), List.append_nil]
    intro c mem
    exact Nat.isDigit_of_mem_toDigits (by decide) (by decide) mem
  have value : Nat.ofDigitChars 10 (Text.decimal channel.toNat) 0 = channel.toNat :=
    Nat.ofDigitChars_ten_toDigits
  have some_digit : Text.decimal channel.toNat ≠ [] := Nat.toDigits_ne_nil
  have byte : channel.toNat < 256 := channel.toNat_lt
  simp only [channel?, digits, value, byte, List.drop_left, List.head?_cons]
  simp [some_digit]

/-- The sequence that sets a colour is understood as that colour. -/
theorem sequence?_setColor (color : Rgb) (rest : List Char) :
    sequence? (Render.setColor color ++ rest) =
      some (some color, (Render.setColor color).length) := by
  have text : Render.setColor color ++ rest =
      '\x1b' :: '[' :: '3' :: '8' :: ';' :: '2' :: ';' :: (Text.decimal color.red.toNat ++
        ';' :: (Text.decimal color.green.toNat ++
          ';' :: (Text.decimal color.blue.toNat ++ 'm' :: rest))) := by
    simp [Render.setColor]
  rw [text, sequence?]
  simp only [channel?_decimal (by decide : ';'.isDigit = false),
    channel?_decimal (by decide : 'm'.isDigit = false), drop_decimal,
    Option.bind_eq_bind, Option.bind_some, Option.pure_def]
  have length : (Render.setColor color).length = 7 + ((Text.decimal color.red.toNat).length + 1) +
      ((Text.decimal color.green.toNat).length + 1) +
      ((Text.decimal color.blue.toNat).length + 1) := by
    simp only [Render.setColor, List.length_append, List.length_cons, List.length_nil]
    omega
  rw [length]

theorem display_setColor (current : Option Rgb) (color : Rgb) (rest : List Char) :
    display current 0 (Render.setColor color ++ rest) = display (some color) 0 rest := by
  apply display_sequence _ (sequence?_setColor color rest)
  simp [Render.setColor]

theorem display_clearColor (current : Option Rgb) (rest : List Char) :
    display current 0 (Render.clearColor ++ rest) = display none 0 rest :=
  display_sequence (List.cons_ne_nil _ _) rfl

example : display none 0 "a\x1b[38;2;7;0;255mb\x1b[0m\x1b[c".toList =
    [⟨'a', none⟩, ⟨'b', some ⟨7, 0, 255⟩⟩, ⟨'\x1b', none⟩, ⟨'[', none⟩, ⟨'c', none⟩] := by decide

end HaskellHighlight.Terminal
