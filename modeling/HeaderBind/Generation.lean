import HeaderBind.Artifact
import HeaderBind.Config.Load
import HeaderBind.Draft.Finish
import HeaderBind.Draft.Replay
import HeaderBind.Report
import HeaderBind.Toolchain

/-!
# `HeaderBind.Generation`: working on a target

Generating a target replays its declarations, probes the toolchain, renders the module and brings
its file up to date, in this order: nothing is written before the whole text is there. Probing a
target stops after the declarations are resolved.
-/

set_option autoImplicit false

namespace HeaderBind.Generation

variable [Interpreter]

/-- What came of generating a target. -/
structure Outcome where
  target : String
  module : String
  path : Path
  status : ArtifactStatus
  difference : String
  deriving DecidableEq, Repr

/-- The draft of a target and the toolchain to probe it with. The settings of the toolchain are
read before the declarations. -/
def prepare (config : Json) (root : Path) (name : String) : Action (Draft × ToolchainSettings) := do
  let target ← Action.ofExcept .ofTarget (Target.find config (some name))
  let host ← get
  let settings ← Action.ofExcept .ofTarget (Target.toolchain target root host.workingDirectory)
  let draft ← Action.ofExcept id (Draft.ofTarget config name none)
  pure (draft, settings)

/-- Generates a target. -/
def generate (config : Json) (root : Path) (name : String) (output : Option String)
    (mode : WriteMode) : Action Outcome := do
  let target ← Action.ofExcept .ofTarget (Target.find config (some name))
  let path ← Action.ofExcept .ofTarget
    (Target.outputPath target root (← get).workingDirectory output)
  let (draft, settings) ← prepare config root name
  let ((text, _), _) ← Toolchain.onHost (draft.finish (Toolchain.probe settings))
  let (status, difference) ← Artifact.write path text mode
  pure ⟨name, Draft.shownName draft.name, path, status, difference⟩

/-- Probes a target: the report and the number of declarations in it. -/
def probe (config : Json) (root : Path) (name : String) : Action (Json × Nat) := do
  let (draft, settings) ← prepare config root name
  let (resolved, commands) ← Toolchain.onHost (draft.resolve (Toolchain.probe settings))
  pure (Report.ofTarget name draft.name commands resolved, resolved.length)

end HeaderBind.Generation
