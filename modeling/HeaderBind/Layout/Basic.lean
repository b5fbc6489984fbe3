import HeaderBind.Layout.Primitive
import HeaderBind.Text.Numeral

/-!
# `HeaderBind.Layout.Basic`: how the bytes of a structure are divided

A probe reports for each member of a structure where it starts, how wide it is and whether it has
a sign, and for the whole structure how long it is. `Layout.synthesize` turns the reports into a
run of fields without holes: every byte between two members, and every byte after the last one,
belongs to a padding field, since the format that is made of the fields aligns nothing by itself.

The offsets and widths come from outside and may be any integers; a layout holds only what can be
represented. Its format may still be refused: a count in it may have too many digits to be written.
`spelledFormat` is the format as it would be written without that limit.
-/

set_option autoImplicit false

namespace HeaderBind

/-- What a probe reports about a member. -/
structure MemberFact where
  name : String
  offset : Int
  width : Int
  signed : Bool
  deriving DecidableEq, Repr

/-- A piece of a structure. -/
inductive Field where
  /-- A member. -/
  | integer (name : String) (type : Primitive)
  /-- Bytes between members. -/
  | padding (count : Nat)
  /-- Whatever follows the fixed part. -/
  | trailing
  deriving DecidableEq, Repr

namespace Field

/-- The text of the field in a format, however many digits it takes; the trailing bytes have
none. -/
def spelled : Field → String
  | integer _ type => String.singleton type.code
  | padding count => if count = 1 then "x" else s!"{count}x"
  | trailing => ""

/-- The number that the text of the field in a format shows, if it shows one. -/
def count? : Field → Option Nat
  | padding count => some count
  | _ => none

/-- The text of the field in a format, unless the number in it has too many digits to be written. -/
def code (field : Field) : Except Numeral.Fault String :=
  if field.count?.all fun (count : Nat) => Numeral.isWritable count then .ok field.spelled
  else .error .tooLongToWrite

/-- Whether the field is a member. -/
def isInteger : Field → Bool
  | integer .. => true
  | _ => false

/-- Whether the field stands for the trailing bytes. -/
def isTrailing : Field → Bool
  | trailing => true
  | _ => false

end Field

/-- The bytes of a structure: its fields in order, and the length of the fixed part. -/
structure Layout where
  base : String
  fields : List Field
  fixedLength : Nat
  deriving DecidableEq, Repr

namespace Layout

/-- Why a structure cannot be laid out. Every number shown to the user is an argument here. -/
inductive Fault where
  /-- A member starts before the end of the one in front of it. -/
  | backwards (base member : String) (offset : Int) (cursor : Nat)
  /-- A member has no supported width. -/
  | unsupportedMember (base member : String) (width : Int) (signed : Bool)
  /-- The members reach past the end of the structure. -/
  | tooShort (base : String) (size : Int) (cursor : Nat)
  /-- There is no integer of that width. -/
  | unsupportedWidth (width : Int) (signed : Bool)
  deriving DecidableEq, Repr

/-- The wording of a refusal. -/
def Fault.message : Fault → String
  | .backwards base member offset cursor =>
    s!"Cannot go backwards for structure {base} member {member}: " ++
      s!"offset {offset} is before byte {cursor}"
  | .unsupportedMember base member width signed =>
    s!"Unsupported member size for structure {base} member {member}: " ++
      s!"{width}-byte {Primitive.signWord signed} integer"
  | .tooShort base size cursor =>
    s!"Structure {base} reports size {size} but its members end at byte {cursor}"
  | .unsupportedWidth width signed =>
    s!"Unsupported member size: {width}-byte {Primitive.signWord signed} integer"

/-- The numbers that the wording of a refusal shows. -/
def Fault.numbers : Fault → List Int
  | .backwards _ _ offset cursor => [offset, cursor]
  | .unsupportedMember _ _ width _ => [width]
  | .tooShort _ size cursor => [size, cursor]
  | .unsupportedWidth width _ => [width]

/-- The letter of an integer of the given width. -/
def primitiveCode (width : Int) (signed : Bool) : Except Fault Char :=
  match Primitive.ofBytes? width signed with
  | some primitive => .ok primitive.code
  | none => .error (.unsupportedWidth width signed)

/-- The padding from one place up to another, if they differ. -/
def gap (start stop : Nat) : List Field :=
  if start < stop then [.padding (stop - start)] else []

/-- The fields of the members when the first of them may start at `cursor`, and where they end. -/
def placeMembers (base : String) : (cursor : Nat) → List MemberFact →
    Except Fault (List Field × Nat)
  | cursor, [] => .ok ([], cursor)
  | cursor, fact :: facts =>
    if fact.offset < cursor then .error (.backwards base fact.name fact.offset cursor)
    else
      match Primitive.ofBytes? fact.width fact.signed with
      | none => .error (.unsupportedMember base fact.name fact.width fact.signed)
      | some type =>
        let start := fact.offset.toNat
        (placeMembers base (start + type.width.bytes) facts).map fun (fields, stop) =>
          (gap cursor start ++ .integer fact.name type :: fields, stop)

/-- Where the fixed part ends: at the reported size, or else behind the last member. -/
def fixedEnd (base : String) (size : Option Int) (cursor : Nat) : Except Fault Nat :=
  match size with
  | none => .ok cursor
  | some size => if size < cursor then .error (.tooShort base size cursor) else .ok size.toNat

/-- The layout of a structure from the facts about its members, in the order of the declaration,
and its reported size. -/
def synthesize (base : String) (facts : List MemberFact) (hasTail : Bool) (size : Option Int) :
    Except Fault Layout :=
  match placeMembers base 0 facts with
  | .error fault => .error fault
  | .ok (fields, cursor) =>
    match fixedEnd base size cursor with
    | .error fault => .error fault
    | .ok stop =>
      .ok ⟨base, fields ++ gap cursor stop ++ (if hasTail then [.trailing] else []), stop⟩

/-- Whether bytes may follow the fixed part. -/
def hasTail (layout : Layout) : Bool :=
  layout.fields.any Field.isTrailing

/-- The number of values that the fixed part holds. -/
def valueCount (layout : Layout) : Nat :=
  layout.fields.countP Field.isInteger

/-- The mark in front of a format: bytes in the order of the machine, standard widths, and no
alignment beyond what the fields spell out. -/
def orderMark : String := "="

/-- The fields that the format has a text for. -/
def fixedFields (layout : Layout) : List Field :=
  layout.fields.filter fun field => !field.isTrailing

/-- The format of the fixed part, however many digits its counts have. -/
def spelledFormat (layout : Layout) : String :=
  orderMark ++ String.join (layout.fixedFields.map Field.spelled)

/-- The format of the fixed part, unless a count in it has too many digits to be written. -/
def format (layout : Layout) : Except Numeral.Fault String := do
  let codes ← layout.fixedFields.mapM Field.code
  .ok (orderMark ++ String.join codes)

end Layout

end HeaderBind
