import HeaderBind.Config.Check
import HeaderBind.Host
import HeaderBind.Json.Printer

/-!
# `HeaderBind.Config.Load`: documents in files

A document is read from a file and written to one. A configuration is a document that passes
`Config.check`.
-/

set_option autoImplicit false

namespace HeaderBind

variable [Interpreter]

namespace Json

/-- The document in a file. -/
def load (path : Path) : Action Json := do
  let text ← Action.readText path fun fault =>
    .configuration (.unreadableDocument path.text fault)
  match parse text with
  | .ok value => pure value
  | .error (.numeral fault) => throw (.numeral fault)
  | .error (.tooDeep descent) => throw (.depth descent)
  | .error .loneUnit => throw .loneUnit
  | .error fault => throw (.configuration (.malformedDocument path.text fault))

/-- Writes a document to a file. The directories that lead to it are made before the document is
turned into text. -/
def save (path : Path) (value : Json) : Action Unit := do
  let host ← get
  Action.change (FileTree.makeDirectories host.workingDirectory path.parent)
  let text ← Action.ofExcept (.ofText .writing) value.renderChecked
  Action.change (FileTree.overwrite host.workingDirectory path (Utf8.encode (text ++ "\n")))

end Json

namespace Config

/-- The configuration in a file. -/
def load (path : Path) : Action Json := do
  let document ← Json.load path
  Action.ofExcept .ofDocument (check document)
  pure document

end Config

end HeaderBind
