import HeaderBind.Interpreter
import HeaderBind.Json.Basic
import HeaderBind.Text.Numeral

/-!
# `HeaderBind.Json.Room`: values that have no text

Two things keep a value from being turned into text, be it a document or a literal in a message: an
integer with too many digits, and values that stand inside one another deeper than there is room
for. The first of them, in the order in which the text is written, is the one that is met.
-/

set_option autoImplicit false

namespace HeaderBind.Json

/-- Why a value cannot be turned into text. -/
inductive TextFault where
  | numeral (fault : Numeral.Fault)
  /-- The values stand too deep inside one another. -/
  | tooDeep
  deriving DecidableEq, Repr

/-- The wording of the error when a value cannot be turned into text. -/
def TextFault.message (descent : Descent) : TextFault → String
  | numeral fault => fault.message
  | tooDeep => descent.message

mutual

/-- The first thing in a value that cannot be turned into text. The room is for the value and for
those inside it. -/
def textFault? : (room : Nat) → Json → Option TextFault
  | 0, _ => some .tooDeep
  | room + 1, value =>
    match value with
    | .integer n => if Numeral.isWritable n then none else some (.numeral .tooLongToWrite)
    | .array items => itemsFault? room items
    | .object fields => fieldsFault? room fields
    | _ => none

/-- The first thing in the items of an array that cannot be turned into text. -/
def itemsFault? (room : Nat) : List Json → Option TextFault
  | [] => none
  | item :: items => (textFault? room item).or (itemsFault? room items)

/-- The first thing in the fields of an object that cannot be turned into text. -/
def fieldsFault? (room : Nat) : List (String × Json) → Option TextFault
  | [] => none
  | (_, value) :: fields => (textFault? room value).or (fieldsFault? room fields)

end

/-- Makes a text of a value, if that can be done in some room. -/
def spellIn (room : Nat) (value : Json) (spell : Json → String) : Except TextFault String :=
  match value.textFault? room with
  | some fault => .error fault
  | none => .ok (spell value)

end HeaderBind.Json
