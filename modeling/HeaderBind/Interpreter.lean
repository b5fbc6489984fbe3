/-!
# `HeaderBind.Interpreter`: how deep the running interpreter can go

An interpreter bounds how many calls are open at once. Reading, writing and showing a document value
opens one more call for every value inside another one, so a value can be nested too deep for each
of the three. Making the directories that lead to a file opens one more call for every directory
that is missing. How much room the calls that are open already leave depends on where the program
stands and on how the interpreter was set up. It is given here as a class: whatever is said about
documents and files holds for every interpreter. The other calls of the program are not counted,
since none of them are nested deeper for longer inputs.
-/

set_option autoImplicit false

namespace HeaderBind

/-- The room for calls that the running interpreter leaves. -/
class Interpreter where
  /-- How many arrays and objects may be open at once while a document is read. -/
  readRoom : Nat
  /-- How many values may stand inside one another in a document that is written, the innermost one
  included. -/
  writeRoom : Nat
  /-- The same for a value that a message shows. The message about a broken rule is made in the
  midst of a check, and the places say where in it: the place of the value, step by step, and in
  front of it those of the values whose alternatives are being tried. Outside of a check there is
  none. -/
  showRoom : (places : List (List String)) → Nat
  /-- How many calls can be open inside the first one while directories are made, each of them for
  the directory in front of the one before. -/
  makeRoom : Nat
  /-- The report on a probe can always be written: its values stand seven deep. -/
  report_fits : 7 ≤ writeRoom

/-- An interpreter that leaves room for somewhat less than a thousand calls, wherever it is in a
check. -/
instance Interpreter.usual : Interpreter where
  readRoom := 990
  writeRoom := 990
  showRoom := fun _ => 900
  makeRoom := 980
  report_fits := by decide

/-- What is being done when the room runs out: a document value is read, written or shown, or
directories are made. -/
inductive Descent where
  | readingArray
  | readingObject
  | writing
  | showing
  | making
  deriving DecidableEq, Repr

/-- The wording of the error when the room runs out. -/
def Descent.message (descent : Descent) : String :=
  "maximum recursion depth exceeded while " ++
    match descent with
    | readingArray => "decoding a JSON array from a unicode string"
    | readingObject => "decoding a JSON object from a unicode string"
    | writing | making => "calling a Python object"
    | showing => "getting the repr of an object"

end HeaderBind
