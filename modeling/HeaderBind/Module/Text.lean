import HeaderBind.Resolution

/-!
# `HeaderBind.Module.Text`: the text of a generated module

A module is a list of parts with two empty lines between them: a header, the two export lists that
are not empty, a fragment for each entry in order, and a last line. Constants that follow each
other share a part. Every part is built as a list of lines, so what may stand in a line can be
asked of the lines themselves. The lines are those of entries of any size; `render` refuses entries
with a number that cannot be written.
-/

set_option autoImplicit false

namespace HeaderBind.Module

/-- The name of the program in what it writes. -/
def toolName : String := "abi_h2py"

/-- What a module binds for a declaration. -/
inductive Entry where
  | constant (declared : Constant) (value : Int)
  | struct (declared : Struct) (layout : Layout)
  deriving DecidableEq, Repr

/-- What a module binds for a resolved declaration. -/
def Entry.ofResolved : Resolved → Entry
  | .constant c value => .constant c value
  | .struct s _ layout => .struct s layout

/-- The declaration of an entry. -/
def Entry.declaration : Entry → Declaration
  | .constant c _ => .constant c
  | .struct s _ => .struct s

/-- Whether an entry is a constant. -/
def Entry.isConstant : Entry → Bool
  | .constant .. => true
  | .struct .. => false

/-- The name of the list of names exported to everyone. -/
def exportList : String := "__all__"

/-- The name of the list of names exported on request. -/
def requestList : String := "__export_ok__"

/-- The line of a constant. -/
def constantLine (c : Constant) (value : Int) : String :=
  s!"{c.exposed} = {value}"

/-- The lines of the encoding routine. It takes one value for each parameter; with a tail, the
last of them is appended to the packed bytes as it is. -/
def encoderLines (s : Struct) (layout : Layout) : List String :=
  let format := Struct.formatName s.base
  let parameters := ", ".intercalate s.parameters
  let body :=
    if layout.hasTail then
      ["    tail = values[-1]",
        "    if not isinstance(tail, (bytes, bytearray, memoryview)):",
        s!"        raise UsageError(\"{s.encoder}: tail must be a bytes-like object\")",
        "    try:",
        s!"        return {format}.pack(*values[:-1]) + bytes(tail)"]
    else
      ["    try:",
        s!"        return {format}.pack(*values)"]
  [s!"def {s.encoder}(*values):",
    s!"    if len(values) != {s.parameters.length}:",
    s!"        raise UsageError(\"usage: {s.encoder}({parameters})\")"] ++
  body ++
  ["    except _struct.error as exc:",
    s!"        raise UsageError(f\"{s.encoder}: \x7bexc\x7d\") from exc"]

/-- The lines of the decoding routine. It takes as many bytes as the fixed part is long, and with
a tail any number of further ones. -/
def decoderLines (s : Struct) (layout : Layout) : List String :=
  let format := Struct.formatName s.base
  let length := layout.fixedLength
  s!"def {s.decoder}(data):" ::
    if layout.hasTail then
      [s!"    if len(data) < {length}:",
        s!"        raise UsageError(\"{s.decoder}: expected at least {length} bytes\")",
        s!"    return {format}.unpack_from(data) + (bytes(data[{length}:]),)"]
    else
      [s!"    if len(data) != {length}:",
        s!"        raise UsageError(\"{s.decoder}: expected {length} bytes\")",
        s!"    return {format}.unpack(data)"]

/-- The lines of a structure: a comment, its compiled format and its two routines. -/
def structLines (s : Struct) (layout : Layout) : List String :=
  let tailNote := if layout.hasTail then " plus trailing data" else ""
  [s!"# {s.name}: {layout.fixedLength} bytes{tailNote}",
    s!"{Struct.formatName s.base} = _struct.Struct(\"{layout.spelledFormat}\")", "", ""] ++
  encoderLines s layout ++ ["", ""] ++ decoderLines s layout

/-- The lines of an entry. -/
def entryLines : Entry → List String
  | .constant c value => [constantLine c value]
  | .struct s layout => structLines s layout

/-- The names that entries made under a mode offer for export, in order. -/
def exportedUnder (mode : ExportMode) (entries : List Entry) : List String :=
  (entries.filter fun entry => entry.declaration.mode == mode).flatMap fun entry =>
    entry.declaration.exportedNames

/-- The lines of a list of names; there are none if no name is in it. -/
def exportLines (listName : String) (names : List String) : List String :=
  if names.isEmpty then []
  else s!"{listName} = [" :: names.map (fun name => s!"    \"{name}\",") ++ ["]"]

/-- The lines in front of everything else. The compiled formats and the error that the routines
raise are needed only where there are structures. -/
def headerLines (name label : String) (withStructs : Bool) : List String :=
  [s!"# This module was generated automatically by {toolName} from {label}.",
    "# Do not edit manually; regenerate it instead.",
    s!"\"\"\"Constants and structure helpers for {name}.\"\"\""] ++
  if withStructs then
    ["", "import struct as _struct", "", "", "class UsageError(ValueError):",
      "    \"\"\"Raised when a generated encode or decode routine is misused.\"\"\""]
  else []

/-- The last line. -/
def lastLine (name : String) : String :=
  s!"# end of generated module {name}"

/-- Puts the lines of an entry in front of the parts of the entries behind it: constants in a row
make one part. -/
def consEntry (entry : Entry) (parts : List (Bool × List String)) : List (Bool × List String) :=
  match entry.isConstant, parts with
  | true, (true, lines) :: rest => (true, entryLines entry ++ lines) :: rest
  | kind, parts => (kind, entryLines entry) :: parts

/-- The parts of the entries, each with whether it is one of constants. -/
def entryParts (entries : List Entry) : List (Bool × List String) :=
  entries.foldr consEntry []

/-- The parts of a module. -/
def parts (name label : String) (entries : List Entry) : List (List String) :=
  let withStructs := entries.any fun entry => !entry.isConstant
  let exports := [exportLines exportList (exportedUnder .always entries),
    exportLines requestList (exportedUnder .onRequest entries)]
  headerLines name label withStructs :: exports.filter (fun lines => !lines.isEmpty) ++
    (entryParts entries).map Prod.snd ++ [[lastLine name]]

/-- The text of a module. -/
def text (name label : String) (entries : List Entry) : String :=
  "\n\n\n".intercalate ((parts name label entries).map ("\n".intercalate ·)) ++ "\n"

/-- The numbers that the text of an entry shows. -/
def Entry.numbers : Entry → List Int
  | .constant _ value => [value]
  | .struct _ layout =>
    layout.fixedLength :: layout.fields.filterMap fun field =>
      match field with
      | .padding count => some count
      | _ => none

/-- The text of a module, unless a number in it has too many digits to be written. -/
def render (name label : String) (entries : List Entry) : Except Numeral.Fault String :=
  if entries.all fun entry => entry.numbers.all Numeral.isWritable then
    .ok (text name label entries)
  else .error .tooLongToWrite

end HeaderBind.Module
