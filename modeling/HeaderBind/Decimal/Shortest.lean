import HeaderBind.Decimal.Binary64

/-!
# `HeaderBind.Decimal.Shortest`: the shortest decimal of a binary64 value

The digits of a number are the fewest that read back as the same value, and of those the nearest
to it. The reals that round to a value form an interval, and on the grid of decimals with a given
number of digits only the two neighbours of the value itself can lie in it: if any point of the
grid does, one of them does. So the digit counts 1, 2, ... are tried on those two.
-/

set_option autoImplicit false

namespace HeaderBind.Binary64

/-- The interval of reals that round to a finite value, over a common denominator. -/
structure Interval where
  low : Nat
  value : Nat
  high : Nat
  den : Nat
  /-- Whether the two ends round to the value as well. -/
  closed : Bool
  deriving DecidableEq, Repr

/-- The interval of a positive finite value. Below a power of two the values lie twice as close
as above it. -/
def roundingInterval (significand : Nat) (exponent : Int) : Interval :=
  let below := if significand = Nat.pow 2 52 && leastExponent < exponent then 1 else 2
  let scale := fun n => if 0 ≤ exponent - 2 then n * Nat.pow 2 (exponent - 2).toNat else n
  { low := scale (4 * significand - below)
    value := scale (4 * significand)
    high := scale (4 * significand + 2)
    den := if 0 ≤ exponent - 2 then 1 else Nat.pow 2 (2 - exponent).toNat
    closed := significand % 2 == 0 }

/-- The numerator and the denominator of a fraction divided by `10 ^ exponent`. -/
def scaleDecimal (num den : Nat) (exponent : Int) : Nat × Nat :=
  if 0 ≤ exponent then (num, den * Nat.pow 10 exponent.toNat)
  else (num * Nat.pow 10 (-exponent).toNat, den)

/-- The number of digits before the point, zero or less for a fraction below a tenth: the least
`p` with `num / den < 10 ^ p`, for a positive fraction. -/
def pointPlace (num den : Nat) : Int :=
  let estimate := ((toString num).length : Int) - (toString den).length
  let (scaled, unit) := scaleDecimal num den estimate
  if scaled < unit then estimate else estimate + 1

/-- Whether `n * 10 ^ exponent` rounds to the value of the interval. -/
def Interval.holds (interval : Interval) (n : Nat) (exponent : Int) : Bool :=
  let (point, unit) :=
    if 0 ≤ exponent then (n * Nat.pow 10 exponent.toNat * interval.den, 1)
    else (n * interval.den, Nat.pow 10 (-exponent).toNat)
  if interval.closed then interval.low * unit ≤ point && point ≤ interval.high * unit
  else interval.low * unit < point && point < interval.high * unit

/-- The first grid, coarsest first, with a point in the interval: that point and the exponent of
the grid. Seventeen digits always suffice. -/
def Interval.search (interval : Interval) (place : Int) : (count : Nat) → Nat × Int
  | 0 => (0, 0)
  | count + 1 =>
    let exponent := place - (17 - count)
    let (scaled, unit) := scaleDecimal interval.value interval.den exponent
    let below := scaled / unit
    let rest := 2 * (scaled % unit)
    let nearBelow := rest < unit || (rest = unit && below % 2 = 0)
    match interval.holds below exponent, interval.holds (below + 1) exponent with
    | true, true => (if nearBelow then below else below + 1, exponent)
    | true, false => (below, exponent)
    | false, true => (below + 1, exponent)
    | false, false => interval.search place count

/-- The shortest decimal of a positive finite value: its digits, and the place of the point
counted from the first digit. -/
def shortest (significand : Nat) (exponent : Int) : List Char × Int :=
  let interval := roundingInterval significand exponent
  let (n, grid) := interval.search (pointPlace interval.value interval.den) 17
  let digits := (toString n).toList
  let stripped := (digits.reverse.dropWhile (· == '0')).reverse
  (stripped, grid + digits.length)

end HeaderBind.Binary64
