import HeaderBind.Decimal.Notation
import HeaderBind.Json.Room
import HeaderBind.Text.Hex

/-!
# `HeaderBind.Json.Printer`: written documents

A written document has its keys sorted by code points, two blanks of indent a level, one item a
line, and no character outside ASCII: every other character is written by its UTF-16 units.
`sortKeys` puts the keys in order and `write` prints a value as it stands; `render` is their
composition, for a value of any size, and `renderChecked` what comes of asking the interpreter for
it.
-/

set_option autoImplicit false

namespace HeaderBind.Json

open HeaderBind.Text

/-- An escape that names a UTF-16 unit. -/
def unitEscape (unit : Nat) : List Char :=
  '\\' :: 'u' :: hexDigits 4 unit

/-- One character inside a written text. -/
def writeChar (c : Char) : List Char :=
  if c = '"' || c = '\\' then ['\\', c]
  else if c = '\n' then ['\\', 'n']
  else if c = '\r' then ['\\', 'r']
  else if c = '\t' then ['\\', 't']
  else if c = '\x0c' then ['\\', 'f']
  else if c = '\x08' then ['\\', 'b']
  else if 0x20 ≤ c.toNat && c.toNat ≤ 0x7e then [c]
  else if c.toNat < 0x10000 then unitEscape c.toNat
  else
    let offset := c.toNat - 0x10000
    unitEscape (0xd800 + offset / 0x400) ++ unitEscape (0xdc00 + offset % 0x400)

/-- A text between double quotes. -/
def writeText (s : String) : List Char :=
  '"' :: s.toList.flatMap writeChar ++ ['"']

/-- A number with a point; the values that are no numbers have names. -/
def writeNumber : Binary64 → List Char
  | .infinite negative => (if negative then "-Infinity" else "Infinity").toList
  | .notANumber => "NaN".toList
  | value => value.text.toList

/-- A new line at a level of indent. -/
def newLine (level : Nat) : List Char :=
  '\n' :: List.replicate (2 * level) ' '

mutual

/-- The same document with the keys of every object sorted. -/
def sortKeys : Json → Json
  | .array items => .array (sortItemKeys items)
  | .object fields => .object ((sortFieldKeys fields).mergeSort fun a b => keyLe a.1 b.1)
  | value => value

/-- The items of an array, the keys of every object in them sorted. -/
def sortItemKeys : List Json → List Json
  | [] => []
  | item :: items => sortKeys item :: sortItemKeys items

/-- The fields of an object, the keys of every object in them sorted. -/
def sortFieldKeys : List (String × Json) → List (String × Json)
  | [] => []
  | (key, value) :: fields => (key, sortKeys value) :: sortFieldKeys fields

end

mutual

/-- A value as it stands, its first line at the end of the current one. -/
def write (level : Nat) : Json → List Char
  | .null => "null".toList
  | .bool true => "true".toList
  | .bool false => "false".toList
  | .integer value => (toString value).toList
  | .number value => writeNumber value
  | .string value => writeText value
  | .array [] => ['[', ']']
  | .array (item :: items) =>
    '[' :: newLine (level + 1) ++ write (level + 1) item ++ writeItems (level + 1) items ++
      newLine level ++ [']']
  | .object [] => ['\x7b', '\x7d']
  | .object ((key, value) :: fields) =>
    '\x7b' :: newLine (level + 1) ++ (writeText key ++ ':' :: ' ' :: write (level + 1) value) ++
      writeFields (level + 1) fields ++ newLine level ++ ['\x7d']

/-- The items after the first one, each behind a comma and on a line of its own. -/
def writeItems (level : Nat) : List Json → List Char
  | [] => []
  | item :: items => ',' :: newLine level ++ write level item ++ writeItems level items

/-- The fields after the first one, each behind a comma and on a line of its own. -/
def writeFields (level : Nat) : List (String × Json) → List Char
  | [] => []
  | (key, value) :: fields =>
    ',' :: newLine level ++ (writeText key ++ ':' :: ' ' :: write level value) ++
      writeFields level fields

end

/-- The text of a document, however many digits its integers have and however deep it is. -/
def render (value : Json) : String :=
  String.ofList (write 0 value.sortKeys)

/-- The text of a document, unless it cannot be turned into text in the room there is. Keys are
sorted before anything is written. -/
def renderChecked [Interpreter] (value : Json) : Except TextFault String :=
  value.sortKeys.spellIn Interpreter.writeRoom fun sorted => String.ofList (write 0 sorted)

end HeaderBind.Json
