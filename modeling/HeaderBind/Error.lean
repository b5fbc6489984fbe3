import HeaderBind.Config.Target
import HeaderBind.Draft.Basic
import HeaderBind.FileTree.Basic
import HeaderBind.Json.Parser
import HeaderBind.Resolution
import HeaderBind.Text.CodeText
import HeaderBind.Text.Utf8

/-!
# `HeaderBind.Error`: everything that can go wrong

Every area has its own causes; here they become one type. Three kinds of errors are about the
user's input and end a command with a message: a configuration that cannot be used, a toolchain
that fails, and an output of a probe that makes no sense. The other kinds come from reading and
writing numbers, texts, documents and files, and pass through a command.
-/

set_option autoImplicit false

namespace HeaderBind

/-- A stage of a run of the toolchain. -/
inductive Stage where
  | compile
  | link
  | run
  deriving DecidableEq, Repr

/-- The name of a stage. -/
def Stage.name : Stage → String
  | compile => "compile"
  | link => "link"
  | run => "run"

/-- Why a stage failed. -/
inductive StageFault where
  /-- No candidate for a compiler was found. -/
  | noCompiler (tried : List String)
  /-- The command could not be launched, or reported a failure. -/
  | failed (command reason : String)
  deriving DecidableEq, Repr

/-- The wording of the failure of a stage. -/
def StageFault.message : StageFault → String
  | .noCompiler tried =>
    let listed := ", ".intercalate tried
    let shown := if listed.isEmpty then "<none>" else listed
    s!"C compiler not found; tried: {shown}. " ++
      "Configure toolchain.compiler/toolchain.compiler_candidates or set ABI_H2PY_CC."
  | .failed command reason => s!"command={command}; error={reason}"

/-- What about a configuration, or a module asked for, cannot be used. -/
inductive ConfigurationFault where
  | exportMode (fault : ExportMode.Fault)
  | declaration (fault : Declaration.Fault)
  | draft (fault : Draft.Fault)
  | layout (fault : Layout.Fault)
  | document (fault : Config.Fault)
  | target (fault : Target.Fault)
  | unreadableDocument (path : String) (fault : FileTree.Fault)
  | malformedDocument (path : String) (fault : Json.ParseFault)
  | unreadableFile (path : String) (fault : FileTree.Fault)
  /-- One output path was given for several targets. -/
  | severalTargets
  deriving DecidableEq, Repr

/-- The wording of a fault of a configuration. -/
def ConfigurationFault.message : ConfigurationFault → String
  | .exportMode fault => fault.message
  | .declaration fault => fault.message
  | .draft fault => fault.message
  | .layout fault => fault.message
  | .document fault => fault.message
  | .target fault => fault.message
  | .unreadableDocument path fault => s!"Unable to read JSON file '{path}': {fault.message}"
  | .malformedDocument path fault => s!"Invalid JSON in '{path}': {fault.message}"
  | .unreadableFile path fault => s!"Unable to read file '{path}': {fault.message}"
  | .severalTargets => "--output can only be used with a single target via --target."

/-- Everything that can go wrong. -/
inductive Error where
  | configuration (fault : ConfigurationFault)
  | probe (fault : Probe.Fault)
  | toolchain (stage : Stage) (fault : StageFault)
  | numeral (fault : Numeral.Fault)
  | encoding (fault : Utf8.Fault)
  | unencodable (fault : CodeText.Fault)
  | file (fault : FileTree.Fault)
  /-- Values stand too deep inside one another. -/
  | depth (descent : Descent)
  /-- A value of some type is to be gone through and cannot be. -/
  | notIterable (type : String)
  /-- A document holds half of a pair of UTF-16 units that stands alone. What is done with it is
  left out here. -/
  | loneUnit
  deriving DecidableEq, Repr

namespace Error

/-- The wording of an error. -/
def message : Error → String
  | configuration fault => fault.message
  | probe fault => fault.message
  | toolchain stage fault => s!"{stage.name} failed: {fault.message}"
  | numeral fault => fault.message
  | encoding fault => fault.message
  | unencodable fault => fault.message
  | file fault => fault.message
  | depth descent => descent.message
  | notIterable type => s!"'{type}' object is not iterable"
  | loneUnit => Json.ParseFault.loneUnit.message

/-- Whether a command ends with the message of the error instead of passing it on. -/
def isReported : Error → Bool
  | configuration _ | probe _ | toolchain .. => true
  | numeral _ | encoding _ | unencodable _ | file _ | depth _ | notIterable _ | loneUnit => false

/-- A value that cannot be turned into text. -/
def ofText (descent : Descent) : Json.TextFault → Error
  | .numeral fault => .numeral fault
  | .tooDeep => .depth descent

/-- A refusal by a draft. -/
def ofDraft : Draft.Fault → Error
  | .declaration (.unshown fault) => .ofText .showing fault
  | fault => .configuration (.draft fault)

/-- A path that can lead nowhere. -/
def ofPath (fault : Path.Fault) : Error :=
  .file (.unusable fault)

/-- A refusal of a target. -/
def ofTarget : Target.Fault → Error
  | .path fault => .ofPath fault
  | fault => .configuration (.target fault)

/-- A refusal of a document. -/
def ofDocument : Config.Fault → Error
  | .unshown fault => .ofText .showing fault
  | fault => .configuration (.document fault)

/-- A failure to resolve declarations. -/
def ofResolution : Resolution.Fault → Error
  | .probe fault => .probe fault
  | .numeral fault => .numeral fault
  | .layout fault => .configuration (.layout fault)

end Error

end HeaderBind
