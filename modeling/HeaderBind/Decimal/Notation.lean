import HeaderBind.Decimal.Shortest

/-!
# `HeaderBind.Decimal.Notation`: how a number is written

A number with a point is written positionally when its first digit lies between the ten-thousands
place after the point and the sixteenth place before it, always with a digit on both sides of the
point, and otherwise with an exponent of at least two digits.
-/

set_option autoImplicit false

namespace HeaderBind.Binary64

/-- Digits with the point after `place` of them. -/
def positional (digits : List Char) (place : Int) : List Char :=
  if place ≤ 0 then '0' :: '.' :: List.replicate (-place).toNat '0' ++ digits
  else if digits.length ≤ place.toNat then
    digits ++ List.replicate (place.toNat - digits.length) '0' ++ ['.', '0']
  else digits.take place.toNat ++ '.' :: digits.drop place.toNat

/-- Digits with the point after the first one and an exponent. -/
def scientific (digits : List Char) (place : Int) : List Char :=
  let exponent := place - 1
  let magnitude := (toString exponent.natAbs).toList
  let mantissa := match digits with
    | first :: rest@(_ :: _) => first :: '.' :: rest
    | digits => digits
  mantissa ++ 'e' :: (if exponent < 0 then '-' else '+') ::
    (List.replicate (2 - magnitude.length) '0' ++ magnitude)

/-- The text of a positive finite value. -/
def magnitudeText (significand : Nat) (exponent : Int) : String :=
  if significand = 0 then "0.0"
  else
    let (digits, place) := shortest significand exponent
    String.ofList (if -4 < place && place ≤ 16 then positional digits place
      else scientific digits place)

/-- The text of a value: the shortest decimal that reads back as it. -/
def text : Binary64 → String
  | finite negative significand exponent =>
    (if negative then "-" else "") ++ magnitudeText significand exponent
  | infinite negative => if negative then "-inf" else "inf"
  | notANumber => "nan"

end HeaderBind.Binary64
