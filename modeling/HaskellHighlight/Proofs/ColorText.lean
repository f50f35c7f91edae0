import HaskellHighlight.Proofs.CharClass
import HaskellHighlight.Proofs.ExactCover
import HaskellHighlight.Session
import Mathlib

/-! Which texts are colours, and what is read from them. -/
namespace HaskellHighlight

/-- `HexDigit c value` says that `c` is the hexadecimal digit of a value below sixteen, in either
case. -/
def HexDigit (c : Char) (value : Nat) : Prop := value < 16 ∧ c.toLower = Text.hexDigit value

private theorem toNat_toLower (c : Char) :
    c.toLower.toNat = if 65 ≤ c.toNat ∧ c.toNat ≤ 90 then c.toNat + 32 else c.toNat := by
  have upper : c.isUpper = true ↔ 65 ≤ c.toNat ∧ c.toNat ≤ 90 := by
    simp [Char.isUpper, UInt32.le_iff_toNat_le, ← Char.toNat_val]
  split
  · rename_i letter
    rw [Char.toLower_eq_of_isUpper (upper.mpr letter)]
    have valid : (c.toNat + 32).isValidChar := by omega
    simp [Char.toNat_ofNat, valid]
  · rename_i other
    rw [Char.toLower_eq_of_not_isUpper fun letter => other (upper.mp letter)]

private theorem toNat_hexDigit {value : Nat} (below : value < 16) :
    (Text.hexDigit value).toNat = if value < 10 then 48 + value else 87 + value := by
  have all : ∀ value < 16,
      (Text.hexDigit value).toNat = if value < 10 then 48 + value else 87 + value := by decide
  exact all value below

/-- The digits that are read are the hexadecimal digits. -/
theorem hexDigitValue?_eq_some_iff {c : Char} {value : Nat} :
    Unicode.hexDigitValue? c = some value ↔ HexDigit c value := by
  have digit : Unicode.isAsciiDigit c = true ↔ 48 ≤ c.toNat ∧ c.toNat ≤ 57 :=
    Unicode.isAsciiDigit_iff
  have small : ('a' ≤ c && c ≤ 'f') = true ↔ 97 ≤ c.toNat ∧ c.toNat ≤ 102 := by
    simp [Char.le_def, UInt32.le_iff_toNat_le, ← Char.toNat_val]
  have large : ('A' ≤ c && c ≤ 'F') = true ↔ 65 ≤ c.toNat ∧ c.toNat ≤ 70 := by
    simp [Char.le_def, UInt32.le_iff_toNat_le, ← Char.toNat_val]
  simp only [Unicode.hexDigitValue?, digit, small, large]
  constructor
  · intro found
    have below : value < 16 := by
      split_ifs at found <;> simp only [Option.some.injEq] at found <;> omega
    refine ⟨below, Char.toNat_inj.mp ?_⟩
    rw [toNat_toLower, toNat_hexDigit below]
    split_ifs at found ⊢ <;> simp only [Option.some.injEq] at found <;> omega
  · rintro ⟨below, lower⟩
    have codes := congrArg Char.toNat lower
    rw [toNat_toLower, toNat_hexDigit below] at codes
    split_ifs at codes ⊢ <;> (try rw [Option.some.injEq]) <;> omega

theorem isHexDigit_iff {c : Char} : Unicode.isHexDigit c = true ↔ ∃ value, HexDigit c value := by
  rw [Unicode.isHexDigit, Option.isSome_iff_exists]
  exact exists_congr fun _ => hexDigitValue?_eq_some_iff

theorem HexDigit.ne_mark {c : Char} {value : Nat} (h : HexDigit c value) : c ≠ '+' ∧ c ≠ '#' := by
  have digit := isHexDigit_iff.mpr ⟨value, h⟩
  constructor <;> rintro rfl <;> exact absurd digit (by decide)

def IsDigitPair (high low : Char) (channel : UInt8) : Prop :=
  ∃ upper lower, HexDigit high upper ∧ HexDigit low lower ∧ channel.toNat = 16 * upper + lower

/-- Two characters that a channel is read from: its two digits, or a plus sign and its one digit. -/
def IsChannel (high low : Char) (channel : UInt8) : Prop :=
  IsDigitPair high low channel ∨ high = '+' ∧ HexDigit low channel.toNat

def ReadsAs (pair : Char → Char → UInt8 → Prop) (digits : List Char) (color : Rgb) : Prop :=
  ∃ a b c d e f, digits = [a, b, c, d, e, f] ∧ pair a b color.red ∧ pair c d color.green ∧
    pair e f color.blue

def Marks (text : String) (digits : List Char) : Prop :=
  text.toList = digits ∨ text.toList = '#' :: digits

def IsHexColor (text : String) (digits : List Char) : Prop :=
  Marks text digits ∧ digits.length = 6 ∧ ∀ c ∈ digits, Unicode.isHexDigit c = true

private theorem ofNat_eq_iff {n : Nat} {channel : UInt8} (below : n < 256) :
    UInt8.ofNat n = channel ↔ channel.toNat = n := by
  rw [← UInt8.toNat_inj, UInt8.toNat_ofNat_of_lt' below, eq_comm]

namespace Rgb

theorem channel?_plus (low : Char) :
    channel? '+' low = (Unicode.hexDigitValue? low).map UInt8.ofNat := by
  simp only [channel?, if_true, Option.bind_eq_bind, Option.bind_some, Option.pure_def,
    Nat.mul_zero, Nat.zero_add]
  cases Unicode.hexDigitValue? low <;> rfl

theorem channel?_of_ne {high : Char} (plus : high ≠ '+') (low : Char) :
    channel? high low = (Unicode.hexDigitValue? high).bind fun upper =>
      (Unicode.hexDigitValue? low).map fun lower => UInt8.ofNat (16 * upper + lower) := by
  simp only [channel?, if_neg plus, Option.bind_eq_bind, Option.pure_def]
  cases Unicode.hexDigitValue? high <;> cases Unicode.hexDigitValue? low <;> rfl

/-- A channel is read from the two characters that stand for it. -/
theorem channel?_eq_some_iff {high low : Char} {channel : UInt8} :
    channel? high low = some channel ↔ IsChannel high low channel := by
  by_cases plus : high = '+'
  · subst plus
    rw [channel?_plus, Option.map_eq_some_iff]
    constructor
    · rintro ⟨lower, found, value⟩
      have digit := hexDigitValue?_eq_some_iff.mp found
      rw [ofNat_eq_iff (Nat.lt_trans digit.1 (by decide))] at value
      exact Or.inr ⟨rfl, value ▸ digit⟩
    · rintro (⟨upper, -, sign, -⟩ | ⟨-, digit⟩)
      · exact absurd rfl sign.ne_mark.1
      · exact ⟨_, hexDigitValue?_eq_some_iff.mpr digit, UInt8.ofNat_toNat⟩
  · rw [channel?_of_ne plus, Option.bind_eq_some_iff]
    have small {upper lower : Nat} (h : upper < 16) (l : lower < 16) : 16 * upper + lower < 256 := by
      omega
    constructor
    · rintro ⟨upper, high_found, rest⟩
      obtain ⟨lower, low_found, value⟩ := Option.map_eq_some_iff.mp rest
      have first := hexDigitValue?_eq_some_iff.mp high_found
      have second := hexDigitValue?_eq_some_iff.mp low_found
      exact Or.inl ⟨upper, lower, first, second, (ofNat_eq_iff (small first.1 second.1)).mp value⟩
    · rintro (⟨upper, lower, first, second, value⟩ | ⟨sign, -⟩)
      · exact ⟨upper, hexDigitValue?_eq_some_iff.mpr first, Option.map_eq_some_iff.mpr
          ⟨lower, hexDigitValue?_eq_some_iff.mpr second,
            (ofNat_eq_iff (small first.1 second.1)).mpr value⟩⟩
      · exact absurd sign plus

/-- A colour is read from a text of characters that stand for its channels, two for each, behind a
hash mark or without one. -/
theorem parse?_eq_some_iff {text : String} {color : Rgb} :
    parse? text = some color ↔ ∃ digits, Marks text digits ∧ ReadsAs IsChannel digits color := by
  constructor
  · intro found
    rw [parse?] at found
    split at found
    · rename_i a b c d e f six
      have marks : Marks text [a, b, c, d, e, f] := by
        split at six
        · rename_i whole
          exact Or.inr (whole.trans (congrArg _ six))
        · exact Or.inl six
      simp only [Option.bind_eq_bind, Option.bind_eq_some_iff, Option.pure_def, Option.some.injEq,
        channel?_eq_some_iff] at found
      obtain ⟨red, first, green, second, blue, third, rfl⟩ := found
      exact ⟨_, marks, a, b, c, d, e, f, rfl, first, second, third⟩
    · contradiction
  · rintro ⟨digits, marks, a, b, c, d, e, f, rfl, red, green, blue⟩
    have digit : a ≠ '#' := by
      rcases red with ⟨upper, -, first, -⟩ | ⟨rfl, -⟩
      · exact first.ne_mark.2
      · decide
    have channels := And.intro (channel?_eq_some_iff.mpr red)
      (And.intro (channel?_eq_some_iff.mpr green) (channel?_eq_some_iff.mpr blue))
    rcases marks with bare | marked
    · simp [parse?, bare, digit, channels]
    · simp only [parse?, marked, channels]
      rfl

/-- A colour that is read from digits is shown with the same digits in lower case. -/
theorem text_of_digits {digits : List Char} {color : Rgb} (h : ReadsAs IsDigitPair digits color) :
    color.text.toList = '#' :: digits.map Char.toLower := by
  have shown {high low : Char} {channel : UInt8} (pair : IsDigitPair high low channel) :
      Text.hexDigits 2 channel.toNat = [high.toLower, low.toLower] := by
    obtain ⟨upper, lower, ⟨small, first⟩, ⟨small', second⟩, value⟩ := pair
    have quotient : channel.toNat / 16 % 16 = upper := by omega
    have rest : channel.toNat % 16 = lower := by omega
    simp only [Text.hexDigits, quotient, rest, first, second, List.nil_append, List.cons_append]
  obtain ⟨a, b, c, d, e, f, rfl, red, green, blue⟩ := h
  simp only [text, shown red, shown green, shown blue, String.toList_ofList, List.map_cons,
    List.map_nil, List.cons_append, List.nil_append]

end Rgb

theorem exists_isDigitPair {high low : Char} (first : Unicode.isHexDigit high = true)
    (second : Unicode.isHexDigit low = true) : ∃ channel, IsDigitPair high low channel := by
  obtain ⟨upper, high_digit⟩ := isHexDigit_iff.mp first
  obtain ⟨lower, low_digit⟩ := isHexDigit_iff.mp second
  have below : 16 * upper + lower < 256 := by
    have := high_digit.1
    have := low_digit.1
    omega
  exact ⟨.ofNat (16 * upper + lower), upper, lower, high_digit, low_digit,
    UInt8.toNat_ofNat_of_lt' below⟩

/-- The six digits of a colour stand for its channels. -/
theorem IsHexColor.exists_color {text : String} {digits : List Char} (h : IsHexColor text digits) :
    ∃ color, ReadsAs IsDigitPair digits color := by
  obtain ⟨-, six, hex⟩ := h
  match digits, six with
  | [a, b, c, d, e, f], _ =>
    simp only [List.forall_mem_cons] at hex
    obtain ⟨red, first⟩ := exists_isDigitPair hex.1 hex.2.1
    obtain ⟨green, second⟩ := exists_isDigitPair hex.2.2.1 hex.2.2.2.1
    obtain ⟨blue, third⟩ := exists_isDigitPair hex.2.2.2.2.1 hex.2.2.2.2.2.1
    exact ⟨⟨red, green, blue⟩, a, b, c, d, e, f, rfl, first, second, third⟩

/-- A colour that was read without a plus sign was read from six digits. -/
theorem ReadsAs.isHexColor {text : String} {digits : List Char} {color : Rgb}
    (h : ReadsAs IsChannel digits color) (marks : Marks text digits) (no_plus : '+' ∉ text.toList) :
    IsHexColor text digits := by
  have inside : ∀ c ∈ digits, c ∈ text.toList := by
    intro c mem
    rcases marks with bare | marked
    · rwa [bare]
    · rw [marked]
      exact List.mem_cons_of_mem _ mem
  have pair {high low : Char} {channel : UInt8} (mem : high ∈ digits)
      (h : IsChannel high low channel) :
      Unicode.isHexDigit high = true ∧ Unicode.isHexDigit low = true := by
    rcases h with ⟨upper, lower, first, second, -⟩ | ⟨rfl, -⟩
    · exact ⟨isHexDigit_iff.mpr ⟨_, first⟩, isHexDigit_iff.mpr ⟨_, second⟩⟩
    · exact absurd (inside _ mem) no_plus
  obtain ⟨a, b, c, d, e, f, rfl, red, green, blue⟩ := h
  refine ⟨marks, rfl, ?_⟩
  have first := pair (by simp) red
  have second := pair (by simp) green
  have third := pair (by simp) blue
  simp [first, second, third]

theorem byteLength_of_ascii {text : List Char} (ascii : ∀ c ∈ text, Unicode.isAscii c = true) :
    Text.byteLength text = text.length := by
  induction text with
  | nil => rfl
  | cons c rest ih =>
    have first : c.toNat < 0x80 := of_decide_eq_true (ascii c List.mem_cons_self)
    have one : c.utf8Size = 1 := by
      rw [Char.utf8Size_eq_one_iff, UInt32.le_iff_toNat_le]
      exact Nat.le_of_lt_succ first
    rw [Text.byteLength, one, ih fun d mem => ascii d (List.mem_cons_of_mem c mem),
      List.length_cons, Nat.add_comm]

/-- Between characters of the ASCII range a text can be cut at every offset. -/
theorem slice?_of_ascii {text : List Char} (ascii : ∀ c ∈ text, Unicode.isAscii c = true)
    {start count : Nat} (inside : start + count ≤ text.length) :
    Text.slice? text start (start + count) = some ((text.drop start).take count) := by
  have whole : text.take start ++ (text.drop start).take count ++ (text.drop start).drop count =
      text := by
    rw [List.append_assoc, List.take_append_drop, List.take_append_drop]
  have front : Text.byteLength (text.take start) = start := by
    rw [byteLength_of_ascii fun c mem => ascii c (List.mem_of_mem_take mem), List.length_take]
    omega
  have part : Text.byteLength ((text.drop start).take count) = count := by
    rw [byteLength_of_ascii fun c mem => ascii c (List.mem_of_mem_drop (List.mem_of_mem_take mem)),
      List.length_take, List.length_drop]
    omega
  have covered := Span.slice?_append (text.take start) ((text.drop start).take count)
    ((text.drop start).drop count)
  rw [whole, front, part] at covered
  exact covered

/-- What is read from the text of a colour. Six hexadecimal digits behind a hash mark or without one
are always a colour, with the values of the pairs of digits as its channels and the digits in lower
case as its text; of texts without a plus sign no others are. A plus sign counts as a first digit of
a channel, and no further texts are colours. A text that is none is reported as it stands. Where six
bytes of ASCII are left, each channel can be cut out of them. -/
theorem color_text_read (text : String) :
    (∀ digits, IsHexColor text digits → ∃ color, Rgb.parse? text = some color ∧
      ReadsAs IsDigitPair digits color ∧ color.text.toList = '#' :: digits.map Char.toLower) ∧
    ('+' ∉ text.toList →
      ((∃ color, Rgb.parse? text = some color) ↔ ∃ digits, IsHexColor text digits)) ∧
    (∀ color, Rgb.parse? text = some color ↔
      ∃ digits, Marks text digits ∧ ReadsAs IsChannel digits color) ∧
    (∀ (scheme : Scheme) (key : Key) (error : SessionError),
      scheme.overrideNamed (key.name, text) = .error error ↔
        error = .invalidColor text ∧ Rgb.parse? text = none) ∧
    (∀ digits, Marks text digits → Text.byteLength digits = 6 →
      (∀ c ∈ digits, Unicode.isAscii c = true) →
        ∀ place ∈ [0, 2, 4], ∃ high low,
          Text.slice? digits place (place + 2) = some [high, low]) := by
  have reads : ∀ digits, IsHexColor text digits → ∃ color, Rgb.parse? text = some color ∧
      ReadsAs IsDigitPair digits color := by
    intro digits hex
    obtain ⟨color, pairs⟩ := hex.exists_color
    obtain ⟨a, b, c, d, e, f, whole, red, green, blue⟩ := pairs
    have channels : ReadsAs IsChannel digits color :=
      ⟨a, b, c, d, e, f, whole, Or.inl red, Or.inl green, Or.inl blue⟩
    exact ⟨color, Rgb.parse?_eq_some_iff.mpr ⟨digits, hex.1, channels⟩,
      a, b, c, d, e, f, whole, red, green, blue⟩
  refine ⟨?_, ?_, ?_, ?_, ?_⟩
  · intro digits hex
    obtain ⟨color, found, pairs⟩ := reads digits hex
    exact ⟨color, found, pairs, Rgb.text_of_digits pairs⟩
  · intro no_plus
    constructor
    · rintro ⟨color, found⟩
      obtain ⟨digits, marks, channels⟩ := Rgb.parse?_eq_some_iff.mp found
      exact ⟨digits, channels.isHexColor marks no_plus⟩
    · rintro ⟨digits, hex⟩
      obtain ⟨color, found, -⟩ := reads digits hex
      exact ⟨color, found⟩
  · intro color
    exact Rgb.parse?_eq_some_iff
  · intro scheme key error
    rw [Scheme.overrideNamed, Key.ofName?_name]
    cases Rgb.parse? text with
    | none => simp [eq_comm]
    | some color => simp
  · intro digits marks bytes ascii place mem
    have six : digits.length = 6 := by rw [← byteLength_of_ascii ascii, bytes]
    have inside : place + 2 ≤ digits.length := by
      simp only [List.mem_cons, List.not_mem_nil, or_false] at mem
      omega
    have two : ((digits.drop place).take 2).length = 2 := by
      rw [List.length_take, List.length_drop]
      omega
    obtain ⟨high, low, pair⟩ := List.length_eq_two.mp two
    exact ⟨high, low, pair ▸ slice?_of_ascii ascii inside⟩

/-- A text with a plus sign in front of each digit is a colour without being made of six digits. -/
theorem signed_color_read :
    Rgb.parse? "+1+2+3" = some ⟨1, 2, 3⟩ ∧ ∀ digits, ¬ IsHexColor "+1+2+3" digits := by
  refine ⟨by decide +kernel, ?_⟩
  rintro digits ⟨bare | marked, -, hex⟩
  · exact absurd (hex '+' (bare ▸ by decide)) (by decide)
  · exact absurd (List.cons.inj marked).1 (by decide)

end HaskellHighlight
