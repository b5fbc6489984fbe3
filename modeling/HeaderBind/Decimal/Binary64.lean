/-!
# `HeaderBind.Decimal.Binary64`: binary floating point numbers

A document may hold numbers with a fraction or an exponent. Such a number is the binary64 value
nearest to what is written, and it is kept here as a significand and a power of two, so that every
step from and to decimal is exact arithmetic on natural numbers. Powers are spelled `Nat.pow`: a
power written with a caret is the one of another class as soon as algebra is imported.
-/

set_option autoImplicit false

namespace HeaderBind

/-- A binary64 value. A finite one is `significand * 2 ^ exponent`, in canonical form: the
significand is below `2 ^ 53`, and below `2 ^ 52` only with the least exponent. -/
inductive Binary64 where
  | finite (negative : Bool) (significand : Nat) (exponent : Int)
  | infinite (negative : Bool)
  | notANumber
  deriving DecidableEq, Repr

namespace Binary64

/-- The exponent of the smallest positive value. -/
def leastExponent : Int := -1074

/-- The exponent of the greatest finite value. -/
def greatestExponent : Int := 971

/-- The quotient rounded to the nearest integer, a half to the even neighbour. -/
def divideNearest (num den : Nat) : Nat :=
  let quotient := num / den
  let twice := 2 * (num % den)
  if twice < den then quotient
  else if den < twice then quotient + 1
  else if quotient % 2 = 0 then quotient else quotient + 1

/-- `num / den` divided by `2 ^ exponent`, as a fraction. -/
def scaleBinary (num den : Nat) (exponent : Int) : Nat × Nat :=
  if 0 ≤ exponent then (num, den * Nat.pow 2 exponent.toNat)
  else (num * Nat.pow 2 (-exponent).toNat, den)

/-- The greatest `k` with `2 ^ k ≤ num / den`, for a positive fraction. -/
def floorLog2 (num den : Nat) : Int :=
  let estimate := (Nat.log2 num : Int) - Nat.log2 den
  let (scaled, unit) := scaleBinary num den estimate
  if unit ≤ scaled then estimate else estimate - 1

/-- The value nearest to a positive fraction, a tie going to the even significand. -/
def ofFraction (negative : Bool) (num den : Nat) : Binary64 :=
  let exponent := max (floorLog2 num den - 52) leastExponent
  let (scaled, unit) := scaleBinary num den exponent
  let rounded := divideNearest scaled unit
  let (significand, exponent) :=
    if rounded = Nat.pow 2 53 then (Nat.pow 2 52, exponent + 1) else (rounded, exponent)
  if greatestExponent < exponent then infinite negative else finite negative significand exponent

/-- The value nearest to `digits * 10 ^ exponent`. Magnitudes far outside the range are decided by
their order alone. -/
def ofDecimal (negative : Bool) (digits : Nat) (exponent : Int) : Binary64 :=
  let order := exponent + (toString digits).length
  if digits = 0 || order < -330 then finite negative 0 leastExponent
  else if 310 < order then infinite negative
  else if 0 ≤ exponent then ofFraction negative (digits * Nat.pow 10 exponent.toNat) 1
  else ofFraction negative digits (Nat.pow 10 (-exponent).toNat)

/-- Whether the value is zero, of either sign. -/
def isZero : Binary64 → Bool
  | finite _ significand _ => significand == 0
  | _ => false

end Binary64

end HeaderBind
