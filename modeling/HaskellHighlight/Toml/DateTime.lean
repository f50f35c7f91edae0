import HaskellHighlight.Unicode.CharClass

/-! Reading of the dates and times of a TOML document, whose values are their texts in one
standard spelling. -/
namespace HaskellHighlight.Toml
open Unicode

def twoDigits? (low high : Nat) : List Char → Option (List Char × List Char)
  | a :: b :: rest =>
    let value := 10 * (a.toNat - 0x30) + (b.toNat - 0x30)
    if isAsciiDigit a && isAsciiDigit b && low ≤ value && value ≤ high then some ([a, b], rest)
    else none
  | _ => none

def decimalValue (digits : List Char) : Nat :=
  digits.foldl (fun value c => 10 * value + (c.toNat - 0x30)) 0

def daysInMonth (year month : Nat) : Nat :=
  if month = 2 then
    if year % 4 = 0 && (year % 100 ≠ 0 || year % 400 = 0) then 29 else 28
  else if month = 4 || month = 6 || month = 9 || month = 11 then 30
  else 31

def char? (c : Char) : List Char → Option (List Char)
  | d :: rest => if d = c then some rest else none
  | [] => none

def date? (text : List Char) : Option (List Char × List Char) := do
  let (century, rest) ← twoDigits? 0 99 text
  let (year, rest) ← twoDigits? 0 99 rest
  let rest ← char? '-' rest
  let (month, rest) ← twoDigits? 1 12 rest
  let rest ← char? '-' rest
  let days := daysInMonth (decimalValue (century ++ year)) (decimalValue month)
  let (day, rest) ← twoDigits? 1 days rest
  return (century ++ year ++ ['-'] ++ month ++ ['-'] ++ day, rest)

/-- Reads the fraction of a second, where there is one, to the ninth place and without final
zeros. -/
def secondFraction (text : List Char) : List Char × List Char :=
  match text with
  | '.' :: rest =>
    let digits := rest.takeWhile isAsciiDigit
    if digits.isEmpty then ([], text)
    else
      let shown := ((digits.take 9).reverse.dropWhile (· = '0')).reverse
      (if shown.isEmpty then [] else '.' :: shown, rest.drop digits.length)
  | _ => ([], text)

/-- Reads a time of day. A minute may have a leap second. -/
def time? (text : List Char) : Option (List Char × List Char) := do
  let (hour, rest) ← twoDigits? 0 23 text
  let rest ← char? ':' rest
  let (minute, rest) ← twoDigits? 0 59 rest
  let rest ← char? ':' rest
  let (second, rest) ← twoDigits? 0 60 rest
  let (fraction, rest) := secondFraction rest
  return (hour ++ [':'] ++ minute ++ [':'] ++ second ++ fraction, rest)

def offset (text : List Char) : List Char × List Char :=
  match text with
  | [] => ([], [])
  | mark :: rest =>
    if mark = 'Z' || mark = 'z' then (['Z'], rest)
    else if mark = '+' || mark = '-' then
      let read : Option (List Char × List Char) := do
        let (hour, rest) ← twoDigits? 0 23 rest
        let rest ← char? ':' rest
        let (minute, rest) ← twoDigits? 0 59 rest
        let mark := if decimalValue (hour ++ minute) = 0 then '+' else mark
        return (mark :: hour ++ [':'] ++ minute, rest)
      read.getD ([], text)
    else ([], text)

def dateTime? (text : List Char) : Option (List Char × List Char) :=
  match date? text with
  | none => time? text
  | some (date, []) => some (date, [])
  | some (date, mark :: rest) =>
    if mark = 'T' || mark = 't' || mark = ' ' then
      match time? rest with
      | none => some (date, mark :: rest)
      | some (time, afterTime) =>
        let (offset, afterOffset) := offset afterTime
        some (date ++ ['T'] ++ time ++ offset, afterOffset)
    else some (date, mark :: rest)

end HaskellHighlight.Toml
