import HaskellHighlight.Text
import HaskellHighlight.Unicode.CharClass
import HaskellHighlight.Highlight.Spans

/-! Colours of 24 bits and their hexadecimal text, and colour schemes: a theme for all keys, and
colours that replace those of single keys. -/
namespace HaskellHighlight

/-- A colour by its three channels. -/
structure Rgb where
  red : UInt8
  green : UInt8
  blue : UInt8
  deriving DecidableEq, Repr

namespace Rgb

def text (color : Rgb) : String :=
  let digits (channel : UInt8) := Text.hexDigits 2 channel.toNat
  String.ofList ('#' :: digits color.red ++ digits color.green ++ digits color.blue)

/-- The value of two characters: two hexadecimal digits, or a plus sign and one. -/
def channel? (high low : Char) : Option UInt8 := do
  let upper ← if high = '+' then some 0 else Unicode.hexDigitValue? high
  let lower ← Unicode.hexDigitValue? low
  return UInt8.ofNat (16 * upper + lower)

def parse? (text : String) : Option Rgb :=
  let digits := match text.toList with
    | '#' :: digits => digits
    | digits => digits
  match digits with
  | [a, b, c, d, e, f] => do return ⟨← channel? a b, ← channel? c d, ← channel? e f⟩
  | _ => none

end Rgb

/-- Base colours for a dark or a light background. -/
inductive Theme where
  | dark | light
  deriving DecidableEq, Repr

def Theme.all : List Theme := [.dark, .light]

def Theme.name : Theme → String
  | .dark => "dark"
  | .light => "light"

def Theme.ofName? (text : String) : Option Theme := all.find? (·.name = text)

/-- General colours of an editor, which themes define and keys inherit. -/
inductive EditorColor where
  | invalidStringEscape | lineComment | string | number | keyword | operationSign | parentheses
  | braces | brackets | identifier | functionDeclaration
  deriving DecidableEq, Repr

def EditorColor.all : List EditorColor :=
  [.invalidStringEscape, .lineComment, .string, .number, .keyword, .operationSign, .parentheses,
   .braces, .brackets, .identifier, .functionDeclaration]

def Key.fallback : Key → EditorColor
  | .illegal => .invalidStringEscape
  | .comment => .lineComment
  | .string => .string
  | .number => .number
  | .keyword => .keyword
  | .operator => .operationSign
  | .parentheses => .parentheses
  | .brace => .braces
  | .bracket => .brackets
  | .symbol => .identifier
  | .constructor => .functionDeclaration

def Theme.color : Theme → EditorColor → Rgb
  | .dark, color => match color with
    | .invalidStringEscape => ⟨0xf4, 0x47, 0x47⟩
    | .lineComment => ⟨0x80, 0x8c, 0x8c⟩
    | .string => ⟨0xb8, 0xd6, 0x8c⟩
    | .number => ⟨0xd1, 0xad, 0x8c⟩
    | .keyword => ⟨0xdb, 0x8c, 0xc2⟩
    | .operationSign => ⟨0xcc, 0xcc, 0xe6⟩
    | .parentheses => ⟨0xb3, 0xb3, 0xb3⟩
    | .braces => ⟨0xe6, 0xcc, 0x8c⟩
    | .brackets => ⟨0x8c, 0xcc, 0xcc⟩
    | .identifier => ⟨0xd9, 0xd9, 0xd9⟩
    | .functionDeclaration => ⟨0x8c, 0xbf, 0xe6⟩
  | .light, color => match color with
    | .invalidStringEscape => ⟨0xcd, 0x31, 0x31⟩
    | .lineComment => ⟨0x6a, 0x73, 0x7d⟩
    | .string => ⟨0x22, 0x86, 0x3a⟩
    | .number => ⟨0x09, 0x86, 0x58⟩
    | .keyword => ⟨0xaf, 0x00, 0xdb⟩
    | .operationSign => ⟨0x38, 0x3a, 0x42⟩
    | .parentheses => ⟨0x55, 0x55, 0x55⟩
    | .braces => ⟨0x79, 0x5e, 0x26⟩
    | .brackets => ⟨0x00, 0x70, 0xc1⟩
    | .identifier => ⟨0x24, 0x29, 0x2e⟩
    | .functionDeclaration => ⟨0x00, 0x5c, 0xc5⟩

/-- A theme and the keys whose colours differ from it. -/
structure Scheme where
  theme : Theme
  overrides : Key → Option Rgb

namespace Scheme

def ofTheme (theme : Theme) : Scheme := ⟨theme, fun _ => none⟩

def override (scheme : Scheme) (key : Key) (color : Rgb) : Scheme :=
  { scheme with overrides := fun k => if k = key then some color else scheme.overrides k }

/-- The colour of a key: its own one, or else the one it inherits from the theme. -/
def colorFor (scheme : Scheme) (key : Key) : Rgb :=
  (scheme.overrides key).getD (scheme.theme.color key.fallback)

@[ext] theorem ext {a b : Scheme} (theme : a.theme = b.theme)
    (colors : ∀ key, a.overrides key = b.overrides key) : a = b := by
  obtain ⟨theme₁, over₁⟩ := a
  obtain ⟨theme₂, over₂⟩ := b
  obtain rfl : theme₁ = theme₂ := theme
  obtain rfl : over₁ = over₂ := funext colors
  rfl

private theorem eq_iff {a b : Scheme} :
    a = b ↔ a.theme = b.theme ∧ ∀ key ∈ Key.all, a.overrides key = b.overrides key :=
  ⟨fun h => h ▸ ⟨rfl, fun _ _ => rfl⟩, fun h => ext h.1 fun key => h.2 key key.mem_all⟩

instance : DecidableEq Scheme := fun _ _ => decidable_of_iff _ eq_iff.symm

theorem overrides_override (scheme : Scheme) (key other : Key) (color : Rgb) :
    (scheme.override key color).overrides other =
      if other = key then some color else scheme.overrides other := rfl

end Scheme

end HaskellHighlight
