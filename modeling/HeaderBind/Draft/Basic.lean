import HeaderBind.Declaration
import HeaderBind.Include
import HeaderBind.Module.Text
import HeaderBind.Path
import HeaderBind.Probe.Source

/-!
# `HeaderBind.Draft.Basic`: a module in the making

A draft gathers what the next module is to bind. The export mode is state of the draft: each
declaration captures the mode in force when it is made. Two lists keep the book: the keys of the
declarations, since a probe answers by key, and the names that the module will bind, since a name
bound twice would silently lose its first meaning. Some names are taken from the start, for every
module may bind them itself.

An operation on a draft is a program of single steps, checks and changes in their order
(`DraftAction`): what it has changed when it is refused stays changed. `Draft.outcome` forgets the
draft of a refusal, and the operations of `Draft` are the programs seen in this way. That a refusal
leaves the draft at hand as it was is a theorem about the programs.
-/

set_option autoImplicit false

namespace HeaderBind

/-- A module in the making. -/
structure Draft where
  name : Option String
  /-- What the header of the module names as its source. -/
  label : String
  /-- Where the module goes if no other place is named. -/
  outputPath : Option Path
  includes : List Include
  declarations : List Declaration
  mode : ExportMode
  keys : List String
  symbols : List String
  deriving DecidableEq, Repr

namespace Draft

/-- The names that a module may bind for itself. -/
def reservedSymbols : List String :=
  ["_struct", "UsageError", Module.exportList, Module.requestList]

/-- Why an operation on a draft is refused. A draft without a name is shown as `None`. -/
inductive Fault where
  | declaration (fault : Declaration.Fault)
  | exportMode (fault : ExportMode.Fault)
  /-- A new module cannot be started while declarations wait. -/
  | pending (current : Option String) (next : String)
  | moduleName (name : String)
  | blankInclude
  | repeatedKey (key : String) (draft : Option String)
  | takenSymbol (symbol : String) (draft : Option String)
  | noName
  | noOutputPath (draft : Option String)
  deriving DecidableEq, Repr

/-- The name of a draft in messages. -/
def shownName (name : Option String) : String :=
  name.getD "None"

/-- The wording of a refusal. -/
def Fault.message : Fault → String
  | .declaration fault => fault.message
  | .exportMode fault => fault.message
  | .pending current next =>
    s!"Module '{shownName current}' has pending declarations; " ++
      s!"finalize it before starting '{next}'."
  | .moduleName name => s!"Invalid module name '{name}'."
  | .blankInclude => "Include path must be a non-empty string."
  | .repeatedKey key draft => s!"'{key}' is already declared in module '{shownName draft}'."
  | .takenSymbol symbol draft =>
    s!"Symbol '{symbol}' is already generated in module '{shownName draft}'."
  | .noName => "Cannot generate a module yet - no module name."
  | .noOutputPath draft => s!"No output path configured for module '{shownName draft}'."

/-- A draft with nothing in it. -/
def empty (name : Option String) (label : String) (outputPath : Option Path) : Draft where
  name := name
  label := label
  outputPath := outputPath
  includes := []
  declarations := []
  mode := .onRequest
  keys := []
  symbols := reservedSymbols

/-- The draft after its declarations were made into a module: its name, label and place stay. -/
def cleared (draft : Draft) : Draft :=
  empty draft.name draft.label draft.outputPath

/-- Whether declarations wait to be made into a module. -/
def isPending (draft : Draft) : Bool :=
  !draft.declarations.isEmpty

/-- What a module names as its source: the given label, else the name of the running program. -/
def chosenLabel (given : Option String) (program : String) : String :=
  chosenName given (chosenName (some (Path.ofString program).name) Module.toolName)

end Draft

/-- An operation on a draft, step by step. -/
abbrev DraftAction := EStateM Draft.Fault Draft

namespace DraftAction

open Draft (Fault)

/-- Refuses unless something holds. -/
def demand (holds : Bool) (fault : Fault) : DraftAction Unit :=
  if holds then pure () else throw fault

/-- The result of a computation that refuses for reasons of its own. -/
def lift {α ε : Type} (wrap : ε → Fault) : Except ε α → DraftAction α
  | .ok value => pure value
  | .error fault => throw (wrap fault)

/-- Names the module in the making. -/
def rename (name : String) : DraftAction Unit := do
  let draft ← get
  demand (!draft.isPending) (.pending draft.name name)
  demand (Name.isModuleName name) (.moduleName name)
  modify fun draft => { draft with name := some name }

/-- Adds a header to include. Its path loses the blanks around it. -/
def addInclude (path : String) (isLocal : Bool) : DraftAction Include := do
  demand (!Text.isBlankText path) .blankInclude
  let header : Include := ⟨Text.trim path, isLocal⟩
  modify fun draft => { draft with includes := draft.includes ++ [header] }
  pure header

/-- Switches the export mode. -/
def setMode (mode : ExportMode) : DraftAction Unit :=
  modify fun draft => { draft with mode := mode }

/-- Switches the export mode to the one of a name. -/
def setModeNamed (name : String) : DraftAction Unit := do
  setMode (← lift .exportMode (ExportMode.ofName name))

/-- Refuses a name that the module binds already. -/
def demandFree (symbol : String) : DraftAction Unit := do
  let draft ← get
  demand (!draft.symbols.contains symbol) (.takenSymbol symbol draft.name)

/-- Adds a declaration whose key and names are new. All checks come first; then the books are
updated one after the other. -/
def register (declaration : Declaration) : DraftAction Unit := do
  let draft ← get
  demand (!draft.keys.contains declaration.key) (.repeatedKey declaration.key draft.name)
  declaration.boundNames.forM demandFree
  modify fun draft => { draft with keys := draft.keys ++ [declaration.key] }
  modify fun draft => { draft with symbols := draft.symbols ++ declaration.exportedNames }
  modify fun draft => { draft with symbols := draft.symbols ++ declaration.internalName?.toList }
  modify fun draft => { draft with declarations := draft.declarations ++ [declaration] }

/-- Declares a constant under the mode in force. -/
def addConstant (source : String) (exposed : Option String) : DraftAction Constant := do
  let c ← lift .declaration (Constant.make source exposed (← get).mode)
  register (.constant c)
  pure c

/-- Declares a structure under the mode in force. -/
def addStruct (name : String) (members : List Declaration.MemberEntry)
    (encoder decoder : Option String) (hasTail : Bool) : DraftAction Struct := do
  let s ← lift .declaration (Struct.make name members (← get).mode encoder decoder hasTail)
  register (.struct s)
  pure s

end DraftAction

namespace Draft

/-- What an operation comes to on a draft: its answer and the new draft, or why it is refused. -/
def outcome {α : Type} (act : DraftAction α) (draft : Draft) : Except Fault (α × Draft) :=
  match act draft with
  | .ok value next => .ok (value, next)
  | .error fault _ => .error fault

/-- The draft that an operation without an answer leads to. -/
def next (act : DraftAction Unit) (draft : Draft) : Except Fault Draft :=
  (outcome act draft).map Prod.snd

/-- Names the module in the making. -/
def rename (draft : Draft) (name : String) : Except Fault Draft :=
  next (DraftAction.rename name) draft

/-- A new draft. -/
def start (name : Option String) (label : String) (outputPath : Option Path) :
    Except Fault Draft :=
  match name with
  | none => .ok (empty none label outputPath)
  | some name => (empty none label outputPath).rename name

/-- Adds a header to include. -/
def addInclude (draft : Draft) (path : String) (isLocal : Bool) :
    Except Fault (Include × Draft) :=
  outcome (DraftAction.addInclude path isLocal) draft

/-- Switches the export mode. -/
def setMode (draft : Draft) (mode : ExportMode) : Draft :=
  { draft with mode := mode }

/-- Switches the export mode to the one of a name. -/
def setModeNamed (draft : Draft) (name : String) : Except Fault Draft :=
  next (DraftAction.setModeNamed name) draft

/-- The first name that a declaration would bind again. -/
def taken? (draft : Draft) (declaration : Declaration) : Option String :=
  declaration.boundNames.find? draft.symbols.contains

/-- Adds a declaration whose key and names are new. -/
def register (draft : Draft) (declaration : Declaration) : Except Fault Draft :=
  next (DraftAction.register declaration) draft

/-- Declares a constant under the mode in force. -/
def addConstant (draft : Draft) (source : String) (exposed : Option String) :
    Except Fault (Constant × Draft) :=
  outcome (DraftAction.addConstant source exposed) draft

/-- Declares a structure under the mode in force. -/
def addStruct (draft : Draft) (name : String) (members : List Declaration.MemberEntry)
    (encoder decoder : Option String) (hasTail : Bool) : Except Fault (Struct × Draft) :=
  outcome (DraftAction.addStruct name members encoder decoder hasTail) draft

/-- The probe program for the declarations that wait. -/
def probeSource (draft : Draft) : String :=
  Probe.source draft.includes draft.declarations

end Draft

end HeaderBind
