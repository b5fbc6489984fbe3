import HeaderBind.Decimal.Notation
import HeaderBind.Json.Room
import HeaderBind.Text.Quoted

/-!
# `HeaderBind.Json.Literal`: a document value inside a message

Messages show an offending value the way the generated language writes it: `None`, `True` and
`False`, quoted texts, and the items of arrays and objects in their own order. `spelled` is that
text for a value of any size, and `literal` what comes of asking an interpreter for it.
-/

set_option autoImplicit false

namespace HeaderBind.Json

open HeaderBind.Text

mutual

/-- A value as it is spelled in the generated language, however many digits it has and however deep
it is. -/
def spelled : Json → String
  | .null => "None"
  | .bool true => "True"
  | .bool false => "False"
  | .integer value => toString value
  | .number value => value.text
  | .string value => quoted value
  | .array items => "[" ++ ", ".intercalate (spelledItems items) ++ "]"
  | .object fields => "\x7b" ++ ", ".intercalate (spelledFields fields) ++ "\x7d"

/-- The items of an array as they are spelled. -/
def spelledItems : List Json → List String
  | [] => []
  | item :: items => spelled item :: spelledItems items

/-- The fields of an object as they are spelled. -/
def spelledFields : List (String × Json) → List String
  | [] => []
  | (key, value) :: fields => (quoted key ++ ": " ++ spelled value) :: spelledFields fields

end

/-- A value as a literal of the generated language, unless it cannot be turned into text in the
room there is. -/
def literal (room : Nat) (value : Json) : Except TextFault String :=
  value.spellIn room spelled

/-- A value where a text is wanted: a text as it is, anything else as it is spelled. In a document
that passes `Config.check` a text is there already. -/
def plainText : Json → String
  | .string value => value
  | value => value.spelled

end HeaderBind.Json
