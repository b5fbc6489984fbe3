import HeaderBind.Decimal.Binary64
import HeaderBind.Entries

/-!
# `HeaderBind.Json.Basic`: document values

A configuration document and a probe report are JSON values. Integers are kept apart from numbers
with a fraction or an exponent, and an object remembers the order of its keys, because messages
show both.
-/

set_option autoImplicit false

namespace HeaderBind

/-- A document value. An object holds every key once. -/
inductive Json where
  | null
  | bool (value : Bool)
  | integer (value : Int)
  | number (value : Binary64)
  | string (value : String)
  | array (items : List Json)
  | object (fields : List (String × Json))
  deriving Inhabited, Repr

namespace Json

/-- The value of a key of an object; `none` if the key is missing or the value is no object. -/
def field? : Json → String → Option Json
  | .object fields, key => Entries.get? fields key
  | _, _ => none

/-- The value of a key, an explicit null counting as a missing one. -/
def given? (value : Json) (key : String) : Option Json :=
  match value.field? key with
  | some .null => none
  | found => found

/-- Whether a value counts as not given where a setting is optional: null, false, zero, and the
empty text, array and object. -/
def isVoid : Json → Bool
  | .null => true
  | .bool value => !value
  | .integer value => value == 0
  | .number value => value.isZero
  | .string value => value.isEmpty
  | .array items => items.isEmpty
  | .object fields => fields.isEmpty

/-- The name of the type of a value in messages. -/
def typeName : Json → String
  | .null => "NoneType"
  | .bool _ => "bool"
  | .integer _ => "int"
  | .number _ => "float"
  | .string _ => "str"
  | .array _ => "list"
  | .object _ => "dict"

/-- The text of a value that is a text and not the empty one. -/
def nonEmptyText? : Json → Option String
  | .string value => if value.isEmpty then none else some value
  | _ => none

/-- The order of keys in written documents: by code points. -/
def keyLe (first second : String) : Bool :=
  !decide (second < first)

/-- Keys or names in the order of written documents. -/
def sortTexts (texts : List String) : List String :=
  texts.mergeSort keyLe

end Json

end HeaderBind
