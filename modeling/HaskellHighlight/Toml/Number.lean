import HaskellHighlight.Toml.Binary64
import HaskellHighlight.Unicode.CharClass

/-! Reading of the numbers of a TOML document. Readers give a value and the text after it. -/
namespace HaskellHighlight.Toml
open Unicode

/-- The digits at the front of a text, where a single underscore may stand between two. -/
def digitsAfter (p : Char → Bool) : List Char → List Char × List Char
  | [] => ([], [])
  | c :: rest =>
    if p c then
      let (digits, rest) := digitsAfter p rest
      (c :: digits, rest)
    else if c = '_' then
      match rest with
      | d :: more =>
        if p d then
          let (digits, rest) := digitsAfter p more
          (d :: digits, rest)
        else ([], c :: rest)
      | [] => ([], c :: rest)
    else ([], c :: rest)

def digits? (p : Char → Bool) : List Char → Option (List Char × List Char)
  | [] => none
  | c :: rest => if p c then some (digitsAfter p (c :: rest)) else none

def digitsValue (base : Nat) (digits : List Char) : Nat :=
  digits.foldl (fun value c => base * value + (hexDigitValue? c).getD 0) 0

def sign : List Char → Bool × List Char
  | '-' :: rest => (true, rest)
  | '+' :: rest => (false, rest)
  | text => (false, text)

def wholeDigits? : List Char → Option (List Char × List Char)
  | '0' :: rest => some (['0'], rest)
  | text => digits? isAsciiDigit text

def inIntegerRange (value : Int) : Bool :=
  -9223372036854775808 ≤ value && value ≤ 9223372036854775807

def isBinaryDigit (c : Char) : Bool := c = '0' || c = '1'

/-- Reads an integer: decimal with an optional sign, or without one in another base. -/
def integer? (text : List Char) : Option (Int × List Char) := do
  let (value, rest) ← match text with
    | '0' :: 'x' :: rest => (digits? isHexDigit rest).map fun (ds, rest) =>
        (((digitsValue 16 ds : Nat) : Int), rest)
    | '0' :: 'o' :: rest => (digits? isOctalDigit rest).map fun (ds, rest) =>
        (((digitsValue 8 ds : Nat) : Int), rest)
    | '0' :: 'b' :: rest => (digits? isBinaryDigit rest).map fun (ds, rest) =>
        (((digitsValue 2 ds : Nat) : Int), rest)
    | _ =>
      let (negative, rest) := sign text
      (wholeDigits? rest).map fun (ds, rest) =>
        let magnitude : Int := (digitsValue 10 ds : Nat)
        (if negative then -magnitude else magnitude, rest)
  if inIntegerRange value then some (value, rest) else none

def fraction? : List Char → Option (List Char × List Char)
  | '.' :: rest => digits? isAsciiDigit rest
  | text => some ([], text)

def exponent? (text : List Char) : Option (Option Int × List Char) :=
  match text with
  | [] => some (none, [])
  | c :: rest =>
    if c = 'e' || c = 'E' then
      let (negative, rest) := sign rest
      (digits? isAsciiDigit rest).map fun (ds, rest) =>
        let magnitude : Int := (digitsValue 10 ds : Nat)
        (some (if negative then -magnitude else magnitude), rest)
    else some (none, text)

/-- Reads a floating point number: with a fraction or an exponent, or one of the special values. A
positive number beyond the range has no value. -/
def float? (text : List Char) : Option (Binary64 × List Char) := do
  let (negative, rest) := sign text
  match rest with
  | 'i' :: 'n' :: 'f' :: rest => return (.infinity negative, rest)
  | 'n' :: 'a' :: 'n' :: rest => return (.nan, rest)
  | _ =>
    let (whole, afterWhole) ← wholeDigits? rest
    let (places, afterFraction) ← fraction? afterWhole
    let (exponent, afterExponent) ← exponent? afterFraction
    if places.isEmpty && exponent.isNone then none
    let value := Binary64.ofDecimal negative (digitsValue 10 (whole ++ places))
      (exponent.getD 0 - places.length)
    if value = .infinity false then none
    return (value, afterExponent)

end HaskellHighlight.Toml
