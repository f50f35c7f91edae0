import HaskellHighlight.Text

/-! Binary floating point numbers of 64 bits: the one nearest to a decimal number, and the shortest
decimal text of one. All arithmetic is exact. -/
namespace HaskellHighlight.Toml

/-- A floating point number. A finite one has the value `significand * 2 ^ exponent`, with a
significand below `2 ^ 53`. -/
inductive Binary64 where
  | nan
  | infinity (negative : Bool)
  | finite (negative : Bool) (significand : Nat) (exponent : Int)
  deriving DecidableEq, Repr

namespace Binary64

def maxSignificand : Nat := 9007199254740991

def minNormal : Nat := 4503599627370496

def scaled (n : Nat) (base : Nat) (exponent : Int) : Nat × Nat :=
  if 0 ≤ exponent then (n * Nat.pow base exponent.toNat, 1)
  else (n, Nat.pow base (-exponent).toNat)

def nearestInteger (numerator denominator : Nat) : Nat :=
  let whole := numerator / denominator
  let twice := 2 * (numerator % denominator)
  if denominator < twice || (twice = denominator && whole % 2 = 1) then whole + 1 else whole

/-- The number nearest to a positive fraction, with an even significand when two are equally
near. Fractions beyond the largest number by half a step or more become infinite. -/
def ofFraction (negative : Bool) (numerator denominator : Nat) : Binary64 :=
  let divided (exponent : Int) : Nat × Nat :=
    let (n, d) := scaled 1 2 exponent
    (numerator * d, denominator * n)
  let low : Int := (numerator.log2 : Int) - denominator.log2 - 53
  let (n, d) := divided low
  let exponent := max (if maxSignificand < n / d then low + 1 else low) (-1074)
  let (n, d) := divided exponent
  let rounded := nearestInteger n d
  let (significand, exponent) :=
    if maxSignificand < rounded then (minNormal, exponent + 1) else (rounded, exponent)
  if 971 < exponent then .infinity negative else .finite negative significand exponent

/-- The number nearest to `digits * 10 ^ exponent`. Exponents far outside the range are settled by
the size of the number alone. -/
def ofDecimal (negative : Bool) (digits : Nat) (exponent : Int) : Binary64 :=
  let size := (Text.decimal digits).length + exponent
  if digits = 0 || size < -400 then .finite negative 0 0
  else if 400 < size then .infinity negative
  else
    let (numerator, denominator) := scaled digits 10 exponent
    ofFraction negative numerator denominator

/-- The decimal number `digits * 10 ^ power` with at most `count` digits that is nearest to a
positive number and rounds back to it, where there is one. The number and the ends of the interval
that rounds to it are given in quarters of `2 ^ exponent`; `top` is a power of ten above it. -/
def shortestAt (significand : Nat) (exponent : Int) (top : Int) (count : Nat) :
    Option (Nat × Int) :=
  let power := top - count
  let (unit, unitDivisor) := scaled 1 10 power
  let (quarter, quarterDivisor) := scaled 1 2 (exponent - 2)
  -- comparing `a` quarters with `b` units means comparing `a * inQuarters` with `b * inUnits`
  let inQuarters := quarter * unitDivisor
  let inUnits := unit * quarterDivisor
  let lowest := if significand = minNormal && -1074 < exponent then 1 else 2
  let lower := (4 * significand - lowest) * inQuarters
  let value := 4 * significand * inQuarters
  let upper := (4 * significand + 2) * inQuarters
  let inside (digits : Nat) : Bool :=
    let point := digits * inUnits
    if significand % 2 = 0 then lower ≤ point && point ≤ upper else lower < point && point < upper
  let below := value / inUnits
  let above := below + 1
  match inside below, inside above with
  | false, false => none
  | true, false => some (below, power)
  | false, true => some (above, power)
  | true, true =>
    if value - below * inUnits < above * inUnits - value then some (below, power)
    else some (above, power)

/-- The shortest decimal number that rounds to a positive number. Seventeen digits always do. -/
def shortest (significand : Nat) (exponent : Int) : Nat × Int :=
  let (numerator, denominator) := scaled significand 2 exponent
  let top : Int :=
    if denominator ≤ numerator then (Text.decimal (numerator / denominator)).length
    else 2 - ((Text.decimal (denominator / numerator)).length : Int)
  ((List.range 18).findSome? fun n => shortestAt significand exponent top (n + 1)).getD (0, 0)

def positional (digits : Nat) (power : Int) : List Char :=
  let text := Text.decimal digits
  if 0 ≤ power then text ++ List.replicate power.toNat '0' ++ ['.', '0']
  else
    let places := (-power).toNat
    let padded := List.replicate (places + 1 - text.length) '0' ++ text
    padded.take (padded.length - places) ++ ['.'] ++ padded.drop (padded.length - places)

/-- The text of a number: the shortest digits that read back, without an exponent. -/
def text : Binary64 → List Char
  | .nan => ['N', 'a', 'N']
  | .infinity negative => if negative then ['-', 'i', 'n', 'f'] else ['i', 'n', 'f']
  | .finite negative significand exponent =>
    let magnitude :=
      if significand = 0 then positional 0 0
      else
        let (digits, power) := shortest significand exponent
        positional digits power
    if negative then '-' :: magnitude else magnitude

end Binary64

end HaskellHighlight.Toml
