import ShapeQuery.Number.Shortest

/-!
The text of numbers. A double is written with the fewest digits that read back, positionally for
decimal exponents from `-4` to `15` and with an exponent of at least two digits otherwise; an
integral value keeps its `.0`.
-/
namespace ShapeQuery

def decimalDigits (n : Nat) : List Char :=
  Nat.toDigits 10 n

def decimalText (n : Int) : String :=
  let digits := decimalDigits n.natAbs
  String.ofList (if n < 0 then '-' :: digits else digits)

namespace Double

def dropTrailingZeros (digits : List Char) : List Char :=
  (digits.reverse.dropWhile (· == '0')).reverse

/-- Significant digits `d₁d₂…` that stand for `0.d₁d₂… · 10 ^ point`. -/
structure Digits where
  digits : List Char
  point : Int

/-- The shortest significant digits of a positive finite double. -/
def significant (mantissa : Nat) (exponent : Int) : Digits :=
  let (value, scale) := (interval mantissa exponent).shortest
  let digits := decimalDigits value
  { digits := dropTrailingZeros digits, point := scale + digits.length }

def positional (d : Digits) : List Char :=
  if d.point ≤ 0 then
    '0' :: '.' :: List.replicate (-d.point).toNat '0' ++ d.digits
  else
    let whole := d.digits.take d.point.toNat
    let fraction := d.digits.drop d.point.toNat
    let padding := List.replicate (d.point.toNat - whole.length) '0'
    whole ++ padding ++ '.' :: (if fraction.isEmpty then ['0'] else fraction)

/-- Digits with one of them before the point, and an exponent. -/
def scientific (d : Digits) : List Char :=
  let exponent := d.point - 1
  let power := decimalDigits exponent.natAbs
  let padded := if power.length < 2 then '0' :: power else power
  let sign := if exponent < 0 then '-' else '+'
  let mantissa :=
    match d.digits with
    | first :: second :: more => first :: '.' :: second :: more
    | few => few
  mantissa ++ 'e' :: sign :: padded

/-- The text of a double. It has a decimal point or an exponent even where the
number is whole, and an exponent only where the point would be far off. -/
def text : Double → String
  | .nan => "nan"
  | .infinite negative => if negative then "-inf" else "inf"
  | .finite negative mantissa exponent =>
    let body :=
      if mantissa = 0 then ['0', '.', '0']
      else
        let d := significant mantissa exponent
        if -4 < d.point ∧ d.point ≤ 16 then positional d else scientific d
    String.ofList (if negative then '-' :: body else body)

end Double

end ShapeQuery
