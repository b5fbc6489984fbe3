import HeaderBind.Entries
import HeaderBind.Layout.Basic
import HeaderBind.Text.Lines
import HeaderBind.Text.Numeral
import HeaderBind.Text.Word

/-!
# `HeaderBind.Probe.Output`: what a probe printed

Lines of the form `key=value` are results, all others are skipped, so a program may print more
than its results. A repeated key takes its last value. The value of a structure is its size and
one token for each member, with commas between; blank pieces between commas are skipped.
-/

set_option autoImplicit false

namespace HeaderBind.Probe

open HeaderBind.Text

/-- Why the output of a probe cannot be used. -/
inductive Fault where
  | missing (key : String)
  | notAnInteger (name value : String)
  | emptyStruct (base : String)
  | noSize (base value : String)
  | malformedMember (base token : String)
  | otherMembers (base : String) (actual expected : List String)
  deriving DecidableEq, Repr

/-- The wording of a fault. -/
def Fault.message : Fault → String
  | .missing key => s!"Probe output has no result for '{key}'."
  | .notAnInteger name value =>
    s!"Probe result for constant {name} is not an integer: {quoted value}"
  | .emptyStruct base => s!"Probe result for structure {base} is empty."
  | .noSize base value => s!"Probe result for structure {base} has no size: {quoted value}"
  | .malformedMember base token =>
    s!"Malformed probe token for structure {base}: {quoted token}"
  | .otherMembers base actual expected =>
    s!"Probe result for structure {base} lists members {quotedList actual}, " ++
      s!"expected {quotedList expected}."

/-- Why the value of a structure is refused: it is not of the right form, or a number in it is. -/
inductive StructFault where
  | form (fault : Fault)
  | numeral (fault : Numeral.Fault)
  deriving DecidableEq, Repr

/-- The key and the value of a line of results. The key is the run of word characters in front,
so it is the longest one that can be. -/
def resultOfLine? (line : List Char) : Option (String × String) :=
  let cs := trimChars line
  let key := cs.takeWhile isWordChar
  match key, cs.dropWhile isWordChar with
  | _ :: _, '=' :: value => some (String.ofList key, String.ofList value)
  | _, _ => none

/-- The results among the lines of an output, in the order of the first appearance of their
keys. -/
def results (output : String) : Entries String :=
  Entries.ofList ((splitLines output.toList).filterMap resultOfLine?)

/-- The result for a key. -/
def require (found : Entries String) (key : String) : Except Fault String :=
  match Entries.get? found key with
  | some value => .ok value
  | none => .error (.missing key)

/-- The value of a constant. -/
def readConstant (name value : String) : Except Fault Int :=
  match Numeral.read (trim value) with
  | .ok n => .ok n
  | .error _ => .error (.notAnInteger name value)

/-- What a probe reports about a structure. -/
structure StructFacts where
  size : Int
  members : List MemberFact
  deriving DecidableEq, Repr

/-- The parts of a member token: name, offset, width and sign. -/
structure MemberToken where
  name : String
  offset : String
  width : String
  signed : Bool
  deriving DecidableEq, Repr

/-- The digits in front, if there are any, and what follows them. -/
def splitDecimal? (cs : List Char) : Option (String × List Char) :=
  let digits := cs.takeWhile isDecimalDigit
  if digits.isEmpty then none else some (String.ofList digits, cs.dropWhile isDecimalDigit)

/-- The sign that a letter stands for. -/
def signOfLetter? : List Char → Option Bool
  | ['s'] => some true
  | ['u'] => some false
  | _ => none

/-- The parts of a token of the form `name@offset+width` with a letter for the sign behind. -/
def memberToken? (token : List Char) : Option MemberToken := do
  let cs := trimChars token
  let name := cs.takeWhile isWordChar
  if name.isEmpty then none
  else
    match cs.dropWhile isWordChar with
    | '@' :: afterName =>
      let (offset, afterOffset) ← splitDecimal? afterName
      match afterOffset with
      | '+' :: afterPlus =>
        let (width, afterWidth) ← splitDecimal? afterPlus
        let signed ← signOfLetter? afterWidth
        some ⟨String.ofList name, offset, width, signed⟩
      | _ => none
    | _ => none

/-- Reads a number of a structure, keeping its refusal apart from those of the form. -/
def readNumber (digits : String) : Except StructFault Int :=
  (Numeral.read digits).mapError .numeral

/-- The fact that a member token states. -/
def readMember (base : String) (token : List Char) : Except StructFault MemberFact :=
  match memberToken? token with
  | none => .error (.form (.malformedMember base (String.ofList token)))
  | some parts => do
    let offset ← readNumber parts.offset
    let width ← readNumber parts.width
    .ok ⟨parts.name, offset, width, parts.signed⟩

/-- The facts that the tokens state, in order. -/
def readMembers (base : String) : List (List Char) → Except StructFault (List MemberFact)
  | [] => .ok []
  | token :: tokens => do
    let fact ← readMember base token
    let facts ← readMembers base tokens
    .ok (fact :: facts)

/-- The pieces between commas that are not blank. -/
def tokens (value : List Char) : List (List Char) :=
  ((trimChars value).splitOn ',').filter fun piece => !piece.all isBlank

/-- Whether the facts are about the expected members, in order. -/
def checkMembers (base : String) (facts : List MemberFact) (expected : Option (List String)) :
    Except StructFault Unit :=
  match expected with
  | none => .ok ()
  | some names =>
    let actual := facts.map MemberFact.name
    if names = actual then .ok () else .error (.form (.otherMembers base actual names))

/-- The facts that the value of a structure states. The size has to look like digits before the
members are read, and is read after them. -/
def readStruct (base value : String) (expected : Option (List String)) :
    Except StructFault StructFacts :=
  match tokens value.toList with
  | [] => .error (.form (.emptyStruct base))
  | first :: rest => do
    let size := trimChars first
    if !size.all isDigitLike then .error (.form (.noSize base value))
    else
      let facts ← readMembers base rest
      checkMembers base facts expected
      let size ← readNumber (String.ofList size)
      .ok ⟨size, facts⟩

end HeaderBind.Probe
