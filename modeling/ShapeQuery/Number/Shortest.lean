import ShapeQuery.Number.Double

/-!
The shortest decimal text that reads back as a given double. For one, two, … digits the two
neighbours of the value on that decimal grid are tried; the first grid with a neighbour inside the
rounding interval gives the digits, the nearer neighbour if both are inside.
-/
namespace ShapeQuery.Double

/-- The values that round to a double: fractions with one common denominator.
The ends belong to the interval if the mantissa is even. -/
structure Interval where
  low : Nat
  value : Nat
  high : Nat
  den : Nat
  /-- Whether the ends themselves round to the double. -/
  closed : Bool

/-- The rounding interval of `mantissa · 2 ^ exponent`. The gap below a power
of two is half as wide as the gap above it. -/
def interval (mantissa : Nat) (exponent : Int) : Interval :=
  let narrow := mantissa = Nat.pow 2 52 ∧ minExponent < exponent
  let up := Nat.pow 2 exponent.toNat
  { low := (4 * mantissa - if narrow then 1 else 2) * up
    value := 4 * mantissa * up
    high := (4 * mantissa + 2) * up
    den := 4 * Nat.pow 2 (-exponent).toNat
    closed := mantissa % 2 = 0 }

/-- Whether `n · step` lies in the interval, `step` being a fraction. -/
def Interval.holds (i : Interval) (n stepNum stepDen : Nat) : Bool :=
  let point := n * stepNum * i.den
  let low := i.low * stepDen
  let high := i.high * stepDen
  if i.closed then low ≤ point && point ≤ high else low < point && point < high

def powerOfTen (k : Int) : Nat × Nat :=
  (Nat.pow 10 k.toNat, Nat.pow 10 (-k).toNat)

/-- The multiple of `10 ^ k` that is chosen on its grid, if the grid meets the
interval. Of two neighbours of the value the nearer one is taken. -/
def Interval.onGrid? (i : Interval) (k : Int) : Option Nat :=
  let step := powerOfTen k
  let num := i.value * step.2
  let den := i.den * step.1
  let below := num / den
  match i.holds below step.1 step.2, i.holds (below + 1) step.1 step.2 with
  | true, true =>
    let twice := 2 * (num % den)
    some (if twice < den || (twice = den && below % 2 = 0) then below else below + 1)
  | true, false => some below
  | false, true => some (below + 1)
  | false, false => none

/-- Whether the value of the interval is at least `10 ^ k`. The comparison is
made between integers. -/
def Interval.reaches (i : Interval) (k : Int) : Bool :=
  let power := powerOfTen k
  power.1 * i.den ≤ i.value * power.2

/-- The power of ten just above a positive value, found from a guess that is
off by at most one. -/
def Interval.decimalPoint (i : Interval) : Int :=
  let bits : Int := (i.value.log2 : Int) - (i.den.log2 : Int)
  let guess : Int := (bits * 30103) / 100000
  if i.reaches (guess + 1) then guess + 2
  else if i.reaches guess then guess + 1
  else guess

/-- The shortest digits `d` and the exponent `k` with `d · 10 ^ k` in the
interval, trying at most `tries` more grids. -/
def Interval.shortestFrom (i : Interval) (k : Int) : Nat → Nat × Int
  | 0 => (i.value / i.den, 0)
  | tries + 1 =>
    match i.onGrid? k with
    | some digits => (digits, k)
    | none => i.shortestFrom (k - 1) tries

/-- The shortest digits `d` and the exponent `k` with `d · 10 ^ k` in the interval. -/
def Interval.shortest (i : Interval) : Nat × Int :=
  i.shortestFrom (i.decimalPoint - 1) 20

end ShapeQuery.Double
