import HeaderBind.Proofs.Module.Lines

/-!
# `HeaderBind.Proofs.Module.Routine`: the definitions of a module as trees

The lines of an entry are texts, and a text does not say what the identifiers in it are meant to
stand for. Here the same definitions are built as trees in which every identifier is a `Referent`:
a variable of the routine, something that the language provides, or something that the module binds.
Writing a tree down keeps the spelling of a referent and forgets the rest.

`entryLines_eq` says that the lines of an entry are its definitions, written down. So the trees have
the identifiers of the text (`mem_references`, `mem_locals`), and `calls_struct_iff` says which
of them stand for what the language provides.
-/

set_option autoImplicit false

namespace HeaderBind.Module

/-! ### Trees -/

/-- What an identifier is meant to stand for. -/
inductive Referent where
  /-- A variable of the routine that the identifier is in. -/
  | var (name : String)
  /-- What the language provides under a name. -/
  | builtin (name : String)
  /-- What a module binds for itself under a name. -/
  | own (name : String)
  | constant (declared : Constant)
  | format (declared : Struct)
  | encoder (declared : Struct)
  | decoder (declared : Struct)
  deriving DecidableEq, Repr

/-- How an identifier is written. -/
def Referent.spelling : Referent → String
  | var name => name
  | builtin name => name
  | own name => name
  | constant c => c.exposed
  | format s => Struct.formatName s.base
  | encoder s => s.encoder
  | decoder s => s.decoder

/-- An expression of a module. Arguments and the items of a tuple are joined by `pair`. -/
inductive Expr where
  | reference (referent : Referent)
  | number (value : Int)
  | text (content : String)
  /-- A text in which the value of an expression is shown behind a fixed one. -/
  | formatted (front : String) (shown : Expr)
  | attr (object : Expr) (name : String)
  | call (routine arguments : Expr)
  | subscript (object place : Expr)
  /-- Every place in front of one. -/
  | upTo (stop : Expr)
  /-- Every place from one on. -/
  | onward (start : Expr)
  /-- Each item as an argument of its own. -/
  | spread (object : Expr)
  | pair (first second : Expr)
  /-- What makes a tuple of one item. -/
  | single (item : Expr)
  | group (inner : Expr)
  | negation (operand : Expr)
  | binary (operator : String) (left right : Expr)
  deriving Repr

namespace Expr

/-- How an expression is written. -/
def written : Expr → String
  | reference referent => referent.spelling
  | number value => toString value
  | text content => "\"" ++ content ++ "\""
  | formatted front shown => "f\"" ++ front ++ "\x7b" ++ shown.written ++ "\x7d\""
  | attr object name => object.written ++ "." ++ name
  | call routine arguments => routine.written ++ "(" ++ arguments.written ++ ")"
  | subscript object place => object.written ++ "[" ++ place.written ++ "]"
  | upTo stop => ":" ++ stop.written
  | onward start => start.written ++ ":"
  | spread object => "*" ++ object.written
  | pair first second => first.written ++ ", " ++ second.written
  | single item => item.written ++ ","
  | group inner => "(" ++ inner.written ++ ")"
  | negation operand => "not " ++ operand.written
  | binary operator left right => left.written ++ " " ++ operator ++ " " ++ right.written

/-- The identifiers in an expression, in order. The name of an attribute is none: it is looked up
in an object. -/
def references : Expr → List Referent
  | reference referent => [referent]
  | number _ => []
  | text _ => []
  | formatted _ shown => shown.references
  | attr object _ => object.references
  | call routine arguments => routine.references ++ arguments.references
  | subscript object place => object.references ++ place.references
  | upTo stop => stop.references
  | onward start => start.references
  | spread object => object.references
  | pair first second => first.references ++ second.references
  | single item => item.references
  | group inner => inner.references
  | negation operand => operand.references
  | binary _ left right => left.references ++ right.references

end Expr

/-- A statement of a routine. -/
inductive Stmt where
  | assign (target : String) (value : Expr)
  | give (value : Expr)
  /-- An error, possibly with the one behind it. -/
  | fail (error : Expr) (cause : Option Expr)
  | branch (condition : Expr) (body : Stmt)
  /-- A statement whose errors of one kind are bound to a variable and handled. -/
  | attempt (body : Stmt) (kind : Expr) (target : String) (handler : Stmt)
  deriving Repr

namespace Stmt

/-- The lines of a statement behind some blanks. -/
def lines (indent : String) : Stmt → List String
  | assign target value => [indent ++ target ++ " = " ++ value.written]
  | give value => [indent ++ "return " ++ value.written]
  | fail error none => [indent ++ "raise " ++ error.written]
  | fail error (some cause) => [indent ++ "raise " ++ error.written ++ " from " ++ cause.written]
  | branch condition body =>
    (indent ++ "if " ++ condition.written ++ ":") :: body.lines (indent ++ "    ")
  | attempt body kind target handler =>
    (indent ++ "try:") :: body.lines (indent ++ "    ") ++
      (indent ++ "except " ++ kind.written ++ " as " ++ target ++ ":") ::
        handler.lines (indent ++ "    ")

/-- The identifiers that a statement reads. -/
def references : Stmt → List Referent
  | assign _ value => value.references
  | give value => value.references
  | fail error cause => error.references ++ cause.toList.flatMap Expr.references
  | branch condition body => condition.references ++ body.references
  | attempt body kind _ handler => body.references ++ kind.references ++ handler.references

/-- The names that a statement binds. -/
def targets : Stmt → List String
  | assign target _ => [target]
  | give _ => []
  | fail _ _ => []
  | branch _ body => body.targets
  | attempt body _ target handler => body.targets ++ target :: handler.targets

end Stmt

/-- What a routine takes and does. It has one parameter, which may gather all values. -/
structure Routine where
  gathers : Bool
  parameter : String
  body : List Stmt
  deriving Repr

namespace Routine

/-- The identifiers that a routine reads whenever it is called. -/
def references (routine : Routine) : List Referent :=
  routine.body.flatMap Stmt.references

/-- The variables of a routine: its parameter, and every name that its body binds somewhere. -/
def locals (routine : Routine) : List String :=
  routine.parameter :: routine.body.flatMap Stmt.targets

end Routine

/-- What a module binds at its top. -/
inductive Definition where
  | assign (referent : Referent) (value : Expr)
  | define (referent : Referent) (routine : Routine)
  deriving Repr

namespace Definition

/-- What is bound. -/
def referent : Definition → Referent
  | assign referent _ => referent
  | define referent _ => referent

/-- The routine of a definition, if it is one. -/
def routine? : Definition → Option Routine
  | assign .. => none
  | define _ routine => some routine

/-- The lines of a definition. -/
def lines : Definition → List String
  | assign referent value => [referent.spelling ++ " = " ++ value.written]
  | define referent routine =>
    ("def " ++ referent.spelling ++ "(" ++ (if routine.gathers then "*" else "") ++
        routine.parameter ++ "):") ::
      routine.body.flatMap (Stmt.lines "    ")

end Definition

/-! ### The definitions of an entry -/

/-- An error of the module. -/
def usageError (message : Expr) (cause : Option Expr) : Stmt :=
  .fail (.call (.reference (.own "UsageError")) message) cause

/-- The test of the arguments in front of everything else. -/
def refuseUnless (operator : String) (argument : String) (length : Nat) (message : String) : Stmt :=
  .branch (.binary operator (.call (.reference (.builtin "len")) (.reference (.var argument)))
    (.number length)) (usageError (.text message) none)

/-- A call of the compiled format of a structure. -/
def callFormat (s : Struct) (method : String) (arguments : Expr) : Expr :=
  .call (.attr (.reference (.format s)) method) arguments

/-- The bytes of an expression. -/
def callBytes (inner : Expr) : Expr :=
  .call (.reference (.builtin "bytes")) inner

/-- The encoding routine as a tree. -/
def encoderRoutine (s : Struct) (layout : Layout) : Routine where
  gathers := true
  parameter := "values"
  body :=
    let values := .reference (.var "values")
    let tail := .reference (.var "tail")
    let cause := .reference (.var "exc")
    let parameters := ", ".intercalate s.parameters
    let usage := s!"usage: {s.encoder}({parameters})"
    let last := .number (-1)
    let bytesLike := .pair (.reference (.builtin "bytes"))
      (.pair (.reference (.builtin "bytearray")) (.reference (.builtin "memoryview")))
    [refuseUnless "!=" "values" s.parameters.length usage] ++
    (if layout.hasTail then
      [.assign "tail" (.subscript values last),
        .branch
          (.negation (.call (.reference (.builtin "isinstance")) (.pair tail (.group bytesLike))))
          (usageError (.text s!"{s.encoder}: tail must be a bytes-like object") none)]
    else []) ++
    [.attempt
      (.give
        (if layout.hasTail then
          .binary "+" (callFormat s "pack" (.spread (.subscript values (.upTo last))))
            (callBytes tail)
        else callFormat s "pack" (.spread values)))
      (.attr (.reference (.own "_struct")) "error") "exc"
      (usageError (.formatted s!"{s.encoder}: " cause) (some cause))]

/-- The decoding routine as a tree. -/
def decoderRoutine (s : Struct) (layout : Layout) : Routine where
  gathers := false
  parameter := "data"
  body :=
    let data := .reference (.var "data")
    let length := layout.fixedLength
    if layout.hasTail then
      [refuseUnless "<" "data" length s!"{s.decoder}: expected at least {length} bytes",
        .give (.binary "+" (callFormat s "unpack_from" data)
          (.group (.single (callBytes (.subscript data (.onward (.number length)))))))]
    else
      [refuseUnless "!=" "data" length s!"{s.decoder}: expected {length} bytes",
        .give (callFormat s "unpack" data)]

/-- The compiled format of a structure. -/
def compiledFormat (layout : Layout) : Expr :=
  .call (.attr (.reference (.own "_struct")) "Struct") (.text layout.spelledFormat)

/-- The definitions of an entry, in the order of the text. -/
def Entry.definitions : Entry → List Definition
  | .constant c value => [.assign (.constant c) (.number value)]
  | .struct s layout =>
    [.assign (.format s) (compiledFormat layout), .define (.encoder s) (encoderRoutine s layout),
      .define (.decoder s) (decoderRoutine s layout)]

/-- The routines of an entry. -/
def Entry.routines (entry : Entry) : List Routine :=
  entry.definitions.filterMap Definition.routine?

/-- Whether a routine of an entry calls what the language provides under a name. -/
def Entry.Calls (entry : Entry) (name : String) : Prop :=
  ∃ routine ∈ entry.routines, .builtin name ∈ routine.references

instance (entry : Entry) (name : String) : Decidable (entry.Calls name) :=
  inferInstanceAs (Decidable (∃ routine ∈ entry.routines, .builtin name ∈ routine.references))

/-- The comment in front of an entry. -/
def Entry.comment : Entry → List String
  | .constant .. => []
  | .struct s layout =>
    let tailNote := if layout.hasTail then " plus trailing data" else ""
    [s!"# {s.name}: {layout.fixedLength} bytes{tailNote}"]

/-! ### The lines of an entry are its definitions -/

theorem toString_length (n : Nat) : toString (n : Int) = toString n := rfl

theorem toString_last : toString (-1 : Int) = "-1" := rfl

theorem constantLine_eq (c : Constant) (value : Int) :
    [constantLine c value] = (Definition.assign (.constant c) (.number value)).lines := by
  simp only [constantLine, Definition.lines, Expr.written, Referent.spelling, toString_text]

theorem formatLine_eq (s : Struct) (layout : Layout) :
    [s!"{Struct.formatName s.base} = _struct.Struct(\"{layout.spelledFormat}\")"]
      = (Definition.assign (.format s) (compiledFormat layout)).lines := by
  simp [Definition.lines, compiledFormat, Expr.written, Referent.spelling, toString_text,
    ← String.toList_inj]

/-- The lines of the encoding routine are its tree, written down. -/
theorem encoderLines_eq (s : Struct) (layout : Layout) :
    encoderLines s layout = (Definition.define (.encoder s) (encoderRoutine s layout)).lines := by
  -- The two sides are cut into pieces at different places, so they are compared as characters.
  cases htail : layout.hasTail <;>
    simp [encoderLines, encoderRoutine, htail, Definition.lines, Stmt.lines, Expr.written,
      Referent.spelling, refuseUnless, usageError, callFormat, callBytes, toString_text,
      toString_length, toString_last, -Int.toString_eq_repr, ← String.toList_inj]

/-- The lines of the decoding routine are its tree, written down. -/
theorem decoderLines_eq (s : Struct) (layout : Layout) :
    decoderLines s layout = (Definition.define (.decoder s) (decoderRoutine s layout)).lines := by
  cases htail : layout.hasTail <;>
    simp [decoderLines, decoderRoutine, htail, Definition.lines, Stmt.lines, Expr.written,
      Referent.spelling, refuseUnless, usageError, callFormat, callBytes, toString_text,
      toString_length, -Int.toString_eq_repr, ← String.toList_inj]

/-- The lines of an entry are its comment and its definitions, two empty lines between them. -/
theorem entryLines_eq (entry : Entry) :
    entryLines entry
      = entry.comment ++ ["", ""].intercalate (entry.definitions.map Definition.lines) := by
  cases entry with
  | constant c value =>
      exact (constantLine_eq c value).trans (List.append_nil _).symm
  | struct s layout =>
      simp only [entryLines, structLines, Entry.comment, Entry.definitions, List.map_cons,
        List.map_nil, ← formatLine_eq, ← encoderLines_eq, ← decoderLines_eq]
      simp [List.intercalate]

/-! ### The identifiers in the routines -/

/-- What the routines of a structure call. -/
def calledBuiltins (layout : Layout) : List String :=
  "len" :: if layout.hasTail then ["isinstance", "bytes", "bytearray", "memoryview"] else []

section
variable {s : Struct} {layout : Layout}

theorem references_encoderRoutine :
    (encoderRoutine s layout).references
      = [.builtin "len", .var "values", .own "UsageError"] ++
        (if layout.hasTail then
          [.var "values", .builtin "isinstance", .var "tail", .builtin "bytes",
            .builtin "bytearray", .builtin "memoryview", .own "UsageError", .format s,
            .var "values", .builtin "bytes", .var "tail"]
        else [.format s, .var "values"]) ++
        [.own "_struct", .own "UsageError", .var "exc", .var "exc"] := by
  -- Once it is known whether there is a tail, both lists can be computed.
  cases htail : layout.hasTail <;> simp only [encoderRoutine, htail] <;> rfl

theorem references_decoderRoutine :
    (decoderRoutine s layout).references
      = [.builtin "len", .var "data", .own "UsageError", .format s, .var "data"] ++
        if layout.hasTail then [.builtin "bytes", .var "data"] else [] := by
  cases htail : layout.hasTail <;> simp only [decoderRoutine, htail] <;> rfl

theorem locals_encoderRoutine :
    (encoderRoutine s layout).locals
      = "values" :: (if layout.hasTail then ["tail"] else []) ++ ["exc"] := by
  cases htail : layout.hasTail <;> simp only [encoderRoutine, htail] <;> rfl

theorem locals_decoderRoutine : (decoderRoutine s layout).locals = ["data"] := by
  cases htail : layout.hasTail <;> simp only [decoderRoutine, htail] <;> rfl

theorem mem_routines_struct {routine : Routine} :
    routine ∈ (Entry.struct s layout).routines
      ↔ routine = encoderRoutine s layout ∨ routine = decoderRoutine s layout := by
  show routine ∈ [encoderRoutine s layout, decoderRoutine s layout] ↔ _
  rw [List.mem_cons, List.mem_singleton]

/-- The routines of a structure call what is in the list, and nothing else. -/
theorem calls_struct_iff {name : String} :
    (Entry.struct s layout).Calls name ↔ name ∈ calledBuiltins layout := by
  simp only [Entry.Calls, mem_routines_struct, exists_eq_or_imp, exists_eq_left,
    references_encoderRoutine, references_decoderRoutine, calledBuiltins]
  split <;> grind

/-- The variables of the routines of a structure. -/
theorem mem_locals {routine : Routine} (h : routine ∈ (Entry.struct s layout).routines)
    {name : String} (hname : name ∈ routine.locals) :
    name ∈ ["values", "tail", "exc", "data"] := by
  rcases mem_routines_struct.mp h with rfl | rfl
  · have hall : ∀ hasTail : Bool, ∀ name ∈
        "values" :: (if hasTail then ["tail"] else []) ++ ["exc"],
        name ∈ ["values", "tail", "exc", "data"] := by decide
    rw [locals_encoderRoutine] at hname
    exact hall layout.hasTail name hname
  · rw [locals_decoderRoutine, List.mem_singleton] at hname
    rw [hname]
    decide

/-- What is read in the routines of a structure. -/
theorem mem_references {routine : Routine} (h : routine ∈ (Entry.struct s layout).routines)
    {referent : Referent} (hreferent : referent ∈ routine.references) :
    (∃ name ∈ routine.locals, referent = .var name) ∨
      (∃ name ∈ calledBuiltins layout, referent = .builtin name) ∨
      referent ∈ [.own "_struct", .own "UsageError", .format s] := by
  rcases mem_routines_struct.mp h with rfl | rfl
  · rw [references_encoderRoutine] at hreferent
    rw [locals_encoderRoutine, calledBuiltins]
    split at hreferent <;> grind
  · rw [references_decoderRoutine] at hreferent
    rw [locals_decoderRoutine, calledBuiltins]
    split at hreferent <;> grind

end

end HeaderBind.Module
