/-!
# `HeaderBind.ExportMode`: which names a module exports

A generated module lists the names it exports to everyone and the names it exports to those who
ask. Every declaration carries the mode that was in force when it was made.
-/

set_option autoImplicit false

namespace HeaderBind

/-- How the names of a declaration are exported. -/
inductive ExportMode where
  /-- In no list. -/
  | hidden
  /-- In the list of names exported to everyone. -/
  | always
  /-- In the list of names exported on request. -/
  | onRequest
  deriving DecidableEq, Repr

namespace ExportMode

/-- Every mode, in the order in which messages list them. -/
def all : List ExportMode :=
  [hidden, always, onRequest]

/-- The name of a mode in a configuration. -/
def name : ExportMode → String
  | hidden => "none"
  | always => "default"
  | onRequest => "on_request"

/-- A text that names no mode. -/
structure Fault where
  text : String
  deriving DecidableEq, Repr

/-- The wording of a fault. -/
def Fault.message (fault : Fault) : String :=
  let allowed := ", ".intercalate (all.map name)
  s!"Unknown export mode '{fault.text}'. Expected one of: {allowed}"

/-- The mode with the given name. -/
def ofName (text : String) : Except Fault ExportMode :=
  match all.find? fun mode => mode.name == text with
  | some mode => .ok mode
  | none => .error ⟨text⟩

end ExportMode

end HeaderBind
