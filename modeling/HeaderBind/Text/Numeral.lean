import HeaderBind.Text.Blank
import HeaderBind.Text.Digit
import HeaderBind.Text.Quoted

/-!
# `HeaderBind.Text.Numeral`: decimal numerals of integers

A numeral is an optional sign and decimal digits of any script, single underscores between digits
allowed. Neither reading nor writing goes past `digitLimit` digits: both are refused instead, so
that no text from outside can ask for a conversion of unbounded cost.
-/

set_option autoImplicit false

namespace HeaderBind.Numeral

open HeaderBind.Text

/-- The most digits a numeral may have. -/
def digitLimit : Nat := 4300

/-- Why a numeral is refused. -/
inductive Fault where
  /-- The text is no numeral. -/
  | malformed (text : String)
  /-- The text starts like a numeral of too many digits. -/
  | tooLong (digits : Nat)
  /-- The integer has too many digits to be written. -/
  | tooLongToWrite
  deriving DecidableEq, Repr

/-- The wording of a refusal. A malformed text is shown by the first 200 characters of its quoted
form. -/
def Fault.message : Fault → String
  | .malformed text =>
    "invalid literal for int() with base 10: " ++ String.ofList ((quoted text).toList.take 200)
  | .tooLong digits =>
    s!"Exceeds the limit ({digitLimit} digits) for integer string conversion: " ++
      s!"value has {digits} digits; use sys.set_int_max_str_digits() to increase the limit"
  | .tooLongToWrite =>
    s!"Exceeds the limit ({digitLimit} digits) for integer string conversion; " ++
      "use sys.set_int_max_str_digits() to increase the limit"

/-- Whether every underscore of a run of digits and underscores stands between two digits.
`afterDigit` says whether the character before the run is a digit. -/
def underscoresFit : (afterDigit : Bool) → List Char → Bool
  | afterDigit, [] => afterDigit
  | afterDigit, c :: rest =>
    if c = '_' then afterDigit && underscoresFit false rest else underscoresFit true rest

/-- The value of a list of digit values, most significant digit first. -/
def ofDigits (digits : List Nat) : Nat :=
  digits.foldl (fun value digit => 10 * value + digit) 0

/-- The sign of a numeral and what follows it. -/
def splitSign : List Char → Bool × List Char
  | '-' :: rest => (true, rest)
  | '+' :: rest => (false, rest)
  | cs => (false, cs)

/-- Whether a character may stand in front of a numeral or behind it: white space does, except for
the separators U+001C to U+001F. -/
def isMargin (c : Char) : Bool :=
  isBlank c && !inRanges [(0x1c, 0x1f)] c

/-- The integer that a text writes, what may stand around a numeral ignored. The length is judged on
the leading run of digits, before what follows that run is looked at. -/
def read (text : String) : Except Fault Int :=
  let (negative, body) := splitSign (trimBy isMargin text.toList)
  let isNumeralChar := fun c => isDecimalDigit c || c == '_'
  let run := body.takeWhile isNumeralChar
  let digits := run.filterMap digitValue?
  if !underscoresFit false run then .error (.malformed text)
  else if digitLimit < digits.length then .error (.tooLong digits.length)
  else if !(body.dropWhile isNumeralChar).isEmpty then .error (.malformed text)
  else .ok (if negative then -(ofDigits digits : Int) else ofDigits digits)

/-- Whether an integer has few enough digits to be written. -/
def isWritable (n : Int) : Bool :=
  n.natAbs < Nat.pow 10 digitLimit

end HeaderBind.Numeral
