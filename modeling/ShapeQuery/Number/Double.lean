/-!
Double-precision numbers as exact values: a finite number is `± mantissa · 2 ^ exponent` with a
mantissa below `2 ^ 53` and an exponent of at least `-1074`. Decimal texts are rounded to the
nearest such value, ties to the even mantissa.
-/
namespace ShapeQuery

inductive Double where
  | finite (negative : Bool) (mantissa : Nat) (exponent : Int)
  | infinite (negative : Bool)
  | nan
deriving DecidableEq, Repr, Inhabited

namespace Double

/-- The quotient of two natural numbers rounded to the nearest one, a half to
the even one. -/
def divRound (num den : Nat) : Nat :=
  let q := num / den
  let twice := 2 * (num % den)
  if twice < den then q
  else if den < twice then q + 1
  else q + q % 2

/-- The smallest exponent of a finite number. -/
def minExponent : Int := -1074

/-- `num / den` in units of `2 ^ e`, as a fraction. A negative exponent
multiplies the numerator, so nothing is rounded. -/
def inUnits (num den : Nat) (e : Int) : Nat × Nat :=
  if 0 ≤ e then (num, den * Nat.pow 2 e.toNat) else (num * Nat.pow 2 (-e).toNat, den)

/-- The exponent for which `num / den` has 53 binary digits before the point,
or the smallest one. -/
def exponentFor (num den : Nat) : Int :=
  let guess : Int := (num.log2 : Int) - (den.log2 : Int) - 52
  let scaled := inUnits num den guess
  let exact := if scaled.1 < scaled.2 * Nat.pow 2 52 then guess - 1 else guess
  max exact minExponent

/-- The double nearest to `± num / den`. -/
def ofRatio (negative : Bool) (num den : Nat) : Double :=
  if num = 0 then .finite negative 0 minExponent
  else
    let e := exponentFor num den
    let scaled := inUnits num den e
    let mantissa := divRound scaled.1 scaled.2
    let (mantissa, e) := if mantissa = Nat.pow 2 53 then (Nat.pow 2 52, e + 1) else (mantissa, e)
    if 971 < e then .infinite negative else .finite negative mantissa e

/-- The double nearest to `± digits · 10 ^ scale`. A value beyond every finite
double is infinite, and one far below the smallest is zero, whatever the size
of `scale`. -/
def ofDecimal (negative : Bool) (digits : Nat) (scale : Int) : Double :=
  let magnitude : Int := (digits.log2 : Int) / 3 + scale
  if digits = 0 then .finite negative 0 minExponent
  else if 700 < scale + (digits.log2 : Int) / 4 then .infinite negative
  else if magnitude < -400 then .finite negative 0 minExponent
  else if 0 ≤ scale then ofRatio negative (digits * Nat.pow 10 scale.toNat) 1
  else ofRatio negative digits (Nat.pow 10 (-scale).toNat)

def isIntegral : Double → Bool
  | .finite _ mantissa exponent => 0 ≤ exponent || mantissa % Nat.pow 2 (-exponent).toNat = 0
  | _ => false

/-- A finite number without its fractional part. -/
def truncate? : Double → Option Int
  | .finite negative mantissa exponent =>
    let magnitude : Nat :=
      if 0 ≤ exponent then mantissa * Nat.pow 2 exponent.toNat
        else mantissa / Nat.pow 2 (-exponent).toNat
    some (if negative then -(magnitude : Int) else magnitude)
  | _ => none

def isZero : Double → Bool
  | .finite _ mantissa _ => mantissa = 0
  | _ => false

def isBelowOne : Double → Bool
  | .finite negative mantissa exponent =>
    negative || (if 0 ≤ exponent then mantissa = 0 else mantissa < Nat.pow 2 (-exponent).toNat)
  | .infinite negative => negative
  | .nan => false

end Double

end ShapeQuery
