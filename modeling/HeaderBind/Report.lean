import HeaderBind.Json.Basic
import HeaderBind.Resolution

/-!
# `HeaderBind.Report`: what a probe found, as a document

A report describes every resolved declaration: a constant by its value, a structure by the facts
about its members and by its layout. The numbers of a resolved declaration can be written, and so
can its format.
-/

set_option autoImplicit false

namespace HeaderBind

/-- A fact about a member. -/
def MemberFact.describe (fact : MemberFact) : Json :=
  .object [("name", .string fact.name), ("offset", .integer fact.offset),
    ("byte_width", .integer fact.width), ("signed", .bool fact.signed)]

/-- The facts about a structure. -/
def Probe.StructFacts.describe (facts : Probe.StructFacts) : Json :=
  .object [("size", .integer facts.size), ("members", .array (facts.members.map (·.describe)))]

/-- A field of a layout. -/
def Field.describe : Field → Json
  | integer name type =>
    .object [("kind", .string "integer"), ("name", .string name),
      ("byte_width", .integer type.width.bytes), ("signed", .bool type.signed)]
  | padding count => .object [("kind", .string "padding"), ("byte_count", .integer count)]
  | trailing => .object [("kind", .string "trailing_bytes")]

/-- A layout. -/
def Layout.describe (layout : Layout) : Json :=
  .object [("basename", .string layout.base), ("fixed_length", .integer layout.fixedLength),
    ("has_tail", .bool layout.hasTail), ("struct_format", .string layout.spelledFormat),
    ("fields", .array (layout.fields.map Field.describe))]

/-- A resolved declaration. -/
def Resolved.describe : Resolved → Json
  | constant c value =>
    .object [("kind", .string "constant"), ("name", .string c.exposed),
      ("source_name", .string c.source), ("export", .string c.mode.name),
      ("value", .integer value)]
  | struct s facts layout =>
    .object [("kind", .string "structure"), ("name", .string s.name),
      ("encode_func", .string s.encoder), ("decode_func", .string s.decoder),
      ("export", .string s.mode.name), ("facts", facts.describe), ("layout", layout.describe)]

/-- The report on a target: the commands that were run for it and its declarations. -/
def Report.ofTarget (target : String) (module : Option String) (commands : List String)
    (resolved : List Resolved) : Json :=
  .object [("target", .string target),
    ("module", match module with
      | some name => .string name
      | none => .null),
    ("commands", .array (commands.map Json.string)),
    ("declarations", .array (resolved.map Resolved.describe))]

end HeaderBind
