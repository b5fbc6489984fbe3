import HeaderBind.Interpreter
import HeaderBind.Json.Basic
import HeaderBind.Text.Hex
import HeaderBind.Text.Numeral

/-!
# `HeaderBind.Json.Parser`: reading a document

The reader works on the characters still to be read. A refusal carries what was left at the place
it is about, so that place is the length of the text less the length of what was left, and no
position has to be threaded through the reader. `parse` turns it into a line and a column.

Beyond the standard grammar the three names `NaN`, `Infinity` and `-Infinity` are numbers. An
integer may not have more than `Numeral.digitLimit` digits, and no more arrays and objects may be
open at once than the interpreter has room for. Of a key that occurs twice the last value counts.

A text may hold half of a pair of UTF-16 units that stands alone. No text of this library can hold
it, so the reader stops there (`Stop.loneUnit`): what is done with such a document is left out.
-/

set_option autoImplicit false

namespace HeaderBind.Json

open HeaderBind.Text

/-- What a document lacks, or has too much of, at some place. -/
inductive Expectation where
  | value
  | propertyName
  | colon
  | comma
  | nothingMore
  | closingQuote
  | noControlCharacter
  | escape
  | unitEscape
  | noByteOrderMark
  deriving DecidableEq, Repr

/-- The wording of a refusal. -/
def Expectation.message : Expectation → String
  | .value => "Expecting value"
  | .propertyName => "Expecting property name enclosed in double quotes"
  | .colon => "Expecting ':' delimiter"
  | .comma => "Expecting ',' delimiter"
  | .nothingMore => "Extra data"
  | .closingQuote => "Unterminated string starting at"
  | .noControlCharacter => "Invalid control character at"
  | .escape => "Invalid \\escape"
  | .unitEscape => "Invalid \\uXXXX escape"
  | .noByteOrderMark => "Unexpected UTF-8 BOM (decode using utf-8-sig)"

/-- Where the reading of a text ends early. -/
inductive Stop where
  /-- Something else was expected; what was left to read at that place. -/
  | unmet (expected : Expectation) (rest : List Char)
  /-- An integer is too long. -/
  | numeral (fault : Numeral.Fault)
  /-- There is no room to open one more array or object. -/
  | tooDeep (descent : Descent)
  /-- Half of a pair of units stands alone. -/
  | loneUnit
  deriving DecidableEq, Repr

/-- Whether `c` may stand between the tokens of a document. -/
def isGap (c : Char) : Bool :=
  c == ' ' || c == '\t' || c == '\n' || c == '\r'

/-- The characters after the blanks in front. -/
def skipGap (cs : List Char) : List Char :=
  cs.dropWhile isGap

/-- The character that an escape of one letter stands for. -/
def escaped? : Char → Option Char
  | '"' => some '"'
  | '\\' => some '\\'
  | '/' => some '/'
  | 'b' => some '\x08'
  | 'f' => some '\x0c'
  | 'n' => some '\n'
  | 'r' => some '\r'
  | 't' => some '\t'
  | _ => none

/-- The UTF-16 unit that four hexadecimal digits name. -/
def unit? (a b c d : Char) : Option Nat := do
  let w ← hexValue? a
  let x ← hexValue? b
  let y ← hexValue? c
  let z ← hexValue? d
  some (((w * 16 + x) * 16 + y) * 16 + z)

/-- Whether a unit is the first of a pair. -/
def isHighUnit (unit : Nat) : Bool :=
  0xd800 ≤ unit && unit < 0xdc00

/-- Whether a unit is the second of a pair. -/
def isLowUnit (unit : Nat) : Bool :=
  0xdc00 ≤ unit && unit < 0xe000

/-- The character of a pair of units. -/
def pairedChar (high low : Nat) : Char :=
  Char.ofNat (0x10000 + (high - 0xd800) * 0x400 + (low - 0xdc00))

/-- The character of a code point, unless it is half of a pair. -/
def wholeChar? (point : Nat) : Option Char :=
  if isHighUnit point || isLowUnit point then none else some (Char.ofNat point)

/-- The characters of a list of code points in which a character past U+FFFF may be written as a
pair of units. There are none if half of a pair stands alone. -/
def joinPairs? : List Nat → Option (List Char)
  | [] => some []
  | [point] => (wholeChar? point).map ([·])
  | first :: second :: rest =>
    if isHighUnit first && isLowUnit second then
      (joinPairs? rest).map (pairedChar first second :: ·)
    else
      match wholeChar? first with
      | some c => (joinPairs? (second :: rest)).map (c :: ·)
      | none => none

/-- Puts a code point in front of those that were read. -/
def consPoint (point : Nat) (read : Except Stop (List Nat × List Char)) :
    Except Stop (List Nat × List Char) :=
  read.map fun (points, rest) => (point :: points, rest)

/-- Reads the code points of a text whose opening quote is the first of `opening`, from the
character after it. An escape of four digits needs a character behind it, since the closing quote
is still to come. -/
def scanPoints (opening : List Char) : List Char → Except Stop (List Nat × List Char)
  | [] => .error (.unmet .closingQuote opening)
  | '"' :: rest => .ok ([], rest)
  | '\\' :: rest =>
    match rest with
    | [] => .error (.unmet .closingQuote opening)
    | 'u' :: digits =>
      match digits with
      | a :: b :: c :: d :: tail =>
        if tail.isEmpty then .error (.unmet .unitEscape ('u' :: digits))
        else
          match unit? a b c d with
          | none => .error (.unmet .unitEscape ('u' :: digits))
          | some unit => consPoint unit (scanPoints opening tail)
      | _ => .error (.unmet .unitEscape ('u' :: digits))
    | letter :: rest' =>
      match escaped? letter with
      | some c => consPoint c.toNat (scanPoints opening rest')
      | none => .error (.unmet .escape ('\\' :: letter :: rest'))
  | c :: rest =>
    if c.toNat < 0x20 then .error (.unmet .noControlCharacter (c :: rest))
    else consPoint c.toNat (scanPoints opening rest)

/-- Reads a text whose opening quote is the first of `opening`, from the character after it. -/
def scanText (opening cs : List Char) : Except Stop (String × List Char) :=
  match scanPoints opening cs with
  | .error stop => .error stop
  | .ok (points, rest) =>
    match joinPairs? points with
    | some chars => .ok (String.ofList chars, rest)
    | none => .error .loneUnit

/-- The digits in front and what follows them. -/
def splitDigits (cs : List Char) : List Char × List Char :=
  (cs.takeWhile Char.isDigit, cs.dropWhile Char.isDigit)

/-- The value of decimal digits. -/
def digitsValue (digits : List Char) : Nat :=
  Numeral.ofDigits (digits.map fun c => c.toNat - '0'.toNat)

/-- The digits of a fraction, if a point and a digit are in front. -/
def scanFraction? : List Char → Option (List Char × List Char)
  | '.' :: rest => if (splitDigits rest).1.isEmpty then none else some (splitDigits rest)
  | _ => none

/-- The exponent, if its letter, an optional sign and a digit are in front. -/
def scanExponent? : List Char → Option (Int × List Char)
  | c :: rest =>
    if c = 'e' || c = 'E' then
      let (negative, body) := Numeral.splitSign rest
      let (digits, rest') := splitDigits body
      if digits.isEmpty then none
      else some (if negative then -(digitsValue digits : Int) else digitsValue digits, rest')
    else none
  | [] => none

/-- The digits of the integer part: a single zero, or digits that start with another one. -/
def scanWhole? : List Char → Option (List Char × List Char)
  | '0' :: rest => some (['0'], rest)
  | cs => if (splitDigits cs).1.isEmpty then none else some (splitDigits cs)

/-- Reads a number. -/
def scanNumber (cs : List Char) : Except Stop (Json × List Char) :=
  let (negative, body) := match cs with
    | '-' :: rest => (true, rest)
    | _ => (false, cs)
  match scanWhole? body with
  | none => .error (.unmet .value cs)
  | some (whole, rest) =>
    let fraction := scanFraction? rest
    let (places, rest') := fraction.getD ([], rest)
    let exponent := scanExponent? rest'
    let (power, rest'') := exponent.getD (0, rest')
    if fraction.isNone && exponent.isNone then
      if Numeral.digitLimit < whole.length then .error (.numeral (.tooLong whole.length))
      else
        let value := digitsValue whole
        .ok (.integer (if negative then -(value : Int) else value), rest'')
    else
      .ok (.number (.ofDecimal negative (digitsValue (whole ++ places)) (power - places.length)),
        rest'')

/-- The values that have names. -/
def namedValues : List (String × Json) :=
  [("null", .null), ("true", .bool true), ("false", .bool false), ("NaN", .number .notANumber),
    ("Infinity", .number (.infinite false)), ("-Infinity", .number (.infinite true))]

/-- The named value in front, if any. -/
def scanName? (cs : List Char) : Option (Json × List Char) :=
  namedValues.findSome? fun (name, value) =>
    (name.toList.isPrefixOf? cs).map fun rest => (value, rest)

mutual

/-- Reads the value in front. The fuel bounds the steps on top of each other. A value inside an
array takes two of them, one for the item and one for the value, and at least one character; so
twice the length of the text and one more is always enough. The room is for the arrays and objects
that can be opened yet. -/
def scanValue : (fuel room : Nat) → List Char → Except Stop (Json × List Char)
  | 0, _, cs => .error (.unmet .value cs)
  | fuel + 1, room, cs =>
    match cs with
    | '"' :: rest => (scanText cs rest).map fun (text, rest') => (.string text, rest')
    | '[' :: rest =>
      match room with
      | 0 => .error (.tooDeep .readingArray)
      | room + 1 =>
        match skipGap rest with
        | ']' :: rest' => .ok (.array [], rest')
        | inner => (scanItems fuel room inner).map fun (items, rest') => (.array items, rest')
    | '\x7b' :: rest =>
      match room with
      | 0 => .error (.tooDeep .readingObject)
      | room + 1 =>
        match skipGap rest with
        | '\x7d' :: rest' => .ok (.object [], rest')
        | inner =>
          (scanFields fuel room inner).map fun (fields, rest') =>
            (.object (Entries.ofList fields), rest')
    | _ =>
      match scanName? cs with
      | some found => .ok found
      | none => scanNumber cs

/-- Reads the items of an array up to its closing bracket, the first one in front. -/
def scanItems : (fuel room : Nat) → List Char → Except Stop (List Json × List Char)
  | 0, _, cs => .error (.unmet .value cs)
  | fuel + 1, room, cs =>
    match scanValue fuel room cs with
    | .error stop => .error stop
    | .ok (item, rest) =>
      match skipGap rest with
      | ']' :: rest' => .ok ([item], rest')
      | ',' :: rest' =>
        (scanItems fuel room (skipGap rest')).map fun (items, rest'') => (item :: items, rest'')
      | rest' => .error (.unmet .comma rest')

/-- Reads the fields of an object up to its closing brace, the first one in front. -/
def scanFields : (fuel room : Nat) → List Char →
    Except Stop (List (String × Json) × List Char)
  | 0, _, cs => .error (.unmet .propertyName cs)
  | fuel + 1, room, cs =>
    match cs with
    | '"' :: afterQuote =>
      match scanText cs afterQuote with
      | .error stop => .error stop
      | .ok (key, afterKey) =>
        match skipGap afterKey with
        | ':' :: afterColon =>
          match scanValue fuel room (skipGap afterColon) with
          | .error stop => .error stop
          | .ok (value, rest) =>
            match skipGap rest with
            | '\x7d' :: rest' => .ok ([(key, value)], rest')
            | ',' :: rest' =>
              (scanFields fuel room (skipGap rest')).map fun (fields, rest'') =>
                ((key, value) :: fields, rest'')
            | rest' => .error (.unmet .comma rest')
        | rest => .error (.unmet .colon rest)
    | _ => .error (.unmet .propertyName cs)

end

/-- Reads a whole document. -/
def scanDocument [Interpreter] (cs : List Char) : Except Stop Json :=
  match cs with
  | '\ufeff' :: _ => .error (.unmet .noByteOrderMark cs)
  | _ =>
    match scanValue (2 * cs.length + 2) Interpreter.readRoom (skipGap cs) with
    | .error stop => .error stop
    | .ok (value, rest) =>
      match skipGap rest with
      | [] => .ok value
      | rest' => .error (.unmet .nothingMore rest')

/-- Why a text is no document. Lines and columns are counted from one, the offset from zero. -/
inductive ParseFault where
  | unmet (expected : Expectation) (line column offset : Nat)
  | numeral (fault : Numeral.Fault)
  | tooDeep (descent : Descent)
  | loneUnit
  deriving DecidableEq, Repr

/-- The wording of a refusal. -/
def ParseFault.message : ParseFault → String
  | .unmet expected line column offset =>
    s!"{expected.message}: line {line} column {column} (char {offset})"
  | .numeral fault => fault.message
  | .tooDeep descent => descent.message
  | .loneUnit => "half of a pair of units stands alone"

/-- The line and the column of a place in a text. -/
def lineAndColumn (before : List Char) : Nat × Nat :=
  (before.count '\n' + 1, (before.reverse.takeWhile (· ≠ '\n')).length + 1)

/-- The document that a text writes. -/
def parse [Interpreter] (text : String) : Except ParseFault Json :=
  let cs := text.toList
  match scanDocument cs with
  | .ok value => .ok value
  | .error (.numeral fault) => .error (.numeral fault)
  | .error (.tooDeep descent) => .error (.tooDeep descent)
  | .error .loneUnit => .error .loneUnit
  | .error (.unmet expected rest) =>
    let offset := cs.length - rest.length
    let (line, column) := lineAndColumn (cs.take offset)
    .error (.unmet expected line column offset)

end HeaderBind.Json
