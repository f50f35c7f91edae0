import HaskellHighlight.Color.Scheme
import HaskellHighlight.Highlight.Spans
import HaskellHighlight.Text

/-! Highlighted text for terminals with 24-bit colours, listings with a line for each highlight or
token, and highlights as a JSON array of objects indented by two blanks. -/
namespace HaskellHighlight.Render

def setColor (color : Rgb) : List Char :=
  ['\x1b', '[', '3', '8', ';', '2', ';'] ++ Text.decimal color.red.toNat ++ [';'] ++
    Text.decimal color.green.toNat ++ [';'] ++ Text.decimal color.blue.toNat ++ ['m']

def clearColor : List Char := ['\x1b', '[', '0', 'm']

/-- Paints highlights from byte offset `pos` on, where `rest` is left of the text. -/
def ansiFrom (scheme : Scheme) (pos : Nat) (rest : List Char) :
    List Highlight → Option (List Char)
  | [] => some rest
  | highlight :: more => do
    let ⟨start, stop⟩ := highlight.span
    if start < pos || stop < start then none
    let (gap, afterGap) ← Text.splitBytes? (start - pos) rest
    let (part, afterPart) ← Text.splitBytes? (stop - start) afterGap
    let painted ← ansiFrom scheme stop afterPart more
    return gap ++ setColor (scheme.colorFor highlight.key) ++ part ++ clearColor ++ painted

/-- A text with its highlights painted and all else as it is. There is no result when a highlight
has an end inside a character or past the text, or starts before the one in front of it stops. -/
def ansi (scheme : Scheme) (text : List Char) (highlights : List Highlight) :
    Option (List Char) := ansiFrom scheme 0 text highlights

def plainLine (text : List Char) (highlight : Highlight) : Option (List Char) := do
  let ⟨start, stop⟩ := highlight.span
  let part ← highlight.span.slice? text
  return Text.decimal start ++ ['.', '.'] ++ Text.decimal stop ++ [' '] ++
    highlight.key.name.toList ++ [' '] ++ Text.quoted part ++ ['\n']

/-- A line for each highlight. There is no result when one has an end inside a character or past
the text. -/
def plain (text : List Char) (highlights : List Highlight) : Option (List Char) :=
  (highlights.mapM (plainLine text)).map List.flatten

def padding (text : List Char) : List Char := List.replicate (6 - text.length) ' '

/-- The line of a token: its byte offsets in columns, its kind, and the quoted text unless the
token is a blank or a line break. -/
def tokenLine (text : List Char) (token : Token) : Option (List Char) := do
  let part ← token.span.slice? text
  let start := Text.decimal token.span.start
  let stop := Text.decimal token.span.stop
  let shown := match token.kind with
    | .whitespace | .newline => []
    | _ => ' ' :: Text.quoted part
  return padding start ++ start ++ ['.', '.'] ++ stop ++ padding stop ++ [' '] ++
    token.kind.label.toList ++ shown ++ ['\n']

def tokenListing (text : List Char) (tokens : List Token) : Option (List Char) :=
  (tokens.mapM (tokenLine text)).map List.flatten

/-- A character inside a JSON string. Only quotes, backslashes and the controls below the blank
are escaped. -/
def jsonChar (c : Char) : List Char :=
  if c = '"' then ['\\', '"']
  else if c = '\\' then ['\\', '\\']
  else if c = '\x08' then ['\\', 'b']
  else if c = '\t' then ['\\', 't']
  else if c = '\n' then ['\\', 'n']
  else if c = '\x0c' then ['\\', 'f']
  else if c = '\r' then ['\\', 'r']
  else if c.toNat < 0x20 then ['\\', 'u'] ++ Text.hexDigits 4 c.toNat
  else [c]

def jsonString (text : List Char) : List Char := '"' :: text.flatMap jsonChar ++ ['"']

def jsonMember (name : String) (value : List Char) : List Char :=
  "    ".toList ++ jsonString name.toList ++ [':', ' '] ++ value

def jsonObject (scheme : Scheme) (text : List Char) (highlight : Highlight) :
    Option (List Char) := do
  let part ← highlight.span.slice? text
  let members :=
    [jsonMember "start" (Text.decimal highlight.span.start),
     jsonMember "end" (Text.decimal highlight.span.stop),
     jsonMember "key" (jsonString highlight.key.serialName.toList),
     jsonMember "color" (jsonString (scheme.colorFor highlight.key).text.toList),
     jsonMember "text" (jsonString part)]
  return "  \x7b\n".toList ++ [',', '\n'].intercalate members ++ "\n  \x7d".toList

/-- An array with one object for each highlight, and a final line break. There is no result when a
highlight has an end inside a character or past the text. -/
def json (scheme : Scheme) (text : List Char) (highlights : List Highlight) :
    Option (List Char) :=
  (highlights.mapM (jsonObject scheme text)).map fun objects =>
    if objects.isEmpty then ['[', ']', '\n']
    else ['[', '\n'] ++ [',', '\n'].intercalate objects ++ ['\n', ']', '\n']

end HaskellHighlight.Render
