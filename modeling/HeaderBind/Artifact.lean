import HeaderBind.Diff.Unified
import HeaderBind.Host

/-!
# `HeaderBind.Artifact`: writing a file only when it changes

A generated text is compared with what the file holds, line ends unified. If they are equal
nothing happens. Otherwise the difference is reported, and the file is written unless the caller
only asks.

A generated text is a `String`, so it can be encoded. `writeCode` brings a file up to date with any
text that a caller may hand over; for a `String` it does what `write` does.
-/

set_option autoImplicit false

namespace HeaderBind

/-- What a caller wants to happen to a file that is out of date. -/
inductive WriteMode where
  /-- Write it. -/
  | apply
  /-- Only say that it would be written. -/
  | preview
  /-- Only say that it is out of date. -/
  | verify
  deriving DecidableEq, Repr

/-- The mode that two switches choose. Asking whether the file is out of date wins. -/
def WriteMode.ofSwitches (check dryRun : Bool) : WriteMode :=
  if check then .verify else if dryRun then .preview else .apply

/-- What came of a file. -/
inductive ArtifactStatus where
  | unchanged
  | drift
  | wouldWrite
  | updated
  deriving DecidableEq, Repr

/-- The name of a status in reports. -/
def ArtifactStatus.name : ArtifactStatus → String
  | unchanged => "unchanged"
  | drift => "drift"
  | wouldWrite => "would_write"
  | updated => "updated"

/-- The status of a file that differs. -/
def WriteMode.status : WriteMode → ArtifactStatus
  | apply => .updated
  | preview => .wouldWrite
  | verify => .drift

namespace Artifact

/-- The text of a file; the empty text if there is none. -/
def current (path : Path) : Action String := do
  if ← Action.ofExcept .file ((← get).pathExists path) then
    Action.readText path fun fault => .configuration (.unreadableFile path.text fault)
  else pure ""

/-- The difference that a new text makes to a file. -/
def difference (path : Path) (before after : String) : String :=
  Diff.unified before after s!"a/{path.text}" s!"b/{path.text}"

/-- Brings a file up to date: what came of it, and the difference. -/
def write [Interpreter] (path : Path) (content : String) (mode : WriteMode) :
    Action (ArtifactStatus × String) := do
  let before ← current path
  if before = content then pure (.unchanged, "")
  else
    if mode = .apply then Action.writeText path content
    pure (mode.status, difference path before content)

/-- Brings a file up to date with a text given by its code points, writing it if they differ: what
came of it, and the difference. -/
def writeCode [Interpreter] (path : Path) (content : CodeText) :
    Action (ArtifactStatus × String) := do
  let before ← current path
  if CodeText.ofString before = content then pure (.unchanged, "")
  else
    let written ← Action.writeCode path content
    pure (.updated, difference path before written)

end Artifact

end HeaderBind
