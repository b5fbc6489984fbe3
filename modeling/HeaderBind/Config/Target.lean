import HeaderBind.Config.Check
import HeaderBind.Path

/-!
# `HeaderBind.Config.Target`: the targets of a configuration

A target is looked up by its name, or all of them are taken in the order of their names. The
settings of a target are read here without relying on `Config.check`, so a document that was never
checked is refused in the same words wherever its settings cannot be used.
-/

set_option autoImplicit false

namespace HeaderBind

/-- How to reach a toolchain: the compiler as the configuration gives it, further candidates,
flags for the compiler and for the linker, and directories of headers. -/
structure ToolchainSettings where
  compiler : Json
  candidates : List String
  compilerFlags : List String
  linkerFlags : List String
  includeDirectories : List String
  deriving Repr

namespace Target

/-- Why a target cannot be used. -/
inductive Fault where
  | noTargetsObject
  | noValidTargets
  /-- No target has the name; the names that there are. -/
  | unknown (name : String) (known : List String)
  | toolchainNotAnObject
  | textList (fault : Config.TextListFault)
  | noDeclarations (name : String)
  | unknownDeclaration (shown : String)
  /-- A path in the settings can lead nowhere. -/
  | path (fault : Path.Fault)
  deriving DecidableEq, Repr

/-- The wording of a refusal. -/
def Fault.message : Fault → String
  | .noTargetsObject => "Config is missing required object: 'targets'."
  | .noValidTargets => "Config has no valid targets."
  | .unknown name known =>
    let listed := ", ".intercalate known
    let shown := if listed.isEmpty then "<none>" else listed
    s!"Unknown target '{name}'. Known targets: {shown}"
  | .toolchainNotAnObject => "Target field 'toolchain' must be an object when specified."
  | .textList fault => fault.message
  | .noDeclarations name => s!"Target '{name}' has no declarations."
  | .unknownDeclaration shown => s!"Unknown declaration: {shown}"
  | .path fault => fault.message

/-- The target of a name. Without a name nothing is found. -/
def find (config : Json) (name : Option String) : Except Fault Json :=
  match config.field? "targets" with
  | some (.object targets) =>
    match name.bind (Entries.get? targets) with
    | some (.object fields) => .ok (.object fields)
    | _ => .error (.unknown (name.getD "None") (Json.sortTexts (Entries.keys targets)))
  | _ => .error .noTargetsObject

/-- The names of the targets to work on: the given one, or all of them in order. -/
def names (config : Json) (name : Option String) : Except Fault (List String) :=
  match name with
  | some chosen =>
    if chosen.isEmpty then all config
    else (find config (some chosen)).map fun _ => [chosen]
  | none => all config
where
  /-- The names of all targets, in order. -/
  all (config : Json) : Except Fault (List String) :=
    match config.field? "targets" with
    | some (.object (target :: targets)) =>
      .ok (Json.sortTexts (Entries.keys (target :: targets)))
    | _ => .error .noValidTargets

/-- The module that a target generates. -/
def moduleName (target : Json) : String :=
  ((target.field? "module").getD .null).plainText

/-- The settings of the toolchain of a target. Directories are seen from a root. -/
def toolchain (target : Json) (root : Path) (workingDirectory : List String) :
    Except Fault ToolchainSettings := do
  let settings := (target.given? "toolchain").getD (.object [])
  if !Config.isObject settings then .error .toolchainNotAnObject
  let texts := fun key =>
    (Config.textList s!"toolchain.{key}" (settings.field? key)).mapError Fault.textList
  let directories ← texts "include_dirs"
  let candidates ← texts "compiler_candidates"
  let compilerFlags ← texts "cflags"
  let linkerFlags ← texts "ldflags"
  let resolved ← directories.mapM fun directory =>
    ((root.under (Path.ofString directory)).resolve workingDirectory).mapError Fault.path
  .ok
    { compiler := (settings.field? "compiler").getD .null
      candidates := candidates
      compilerFlags := compilerFlags
      linkerFlags := linkerFlags
      includeDirectories := resolved.map Path.text }

/-- The path of a module under its root when the target gives none: points lead into
directories. -/
def defaultOutput (module : String) : String :=
  String.ofList (module.toList.map fun c => if c = '.' then '/' else c) ++ ".py"

/-- The path to write a target to on a disk: the given one, the one of the target, or the one that
follows from the name of the module, each seen from a root. -/
def outputPathOn (disk : Path.Disk) (target : Json) (root : Path) (workingDirectory : List String)
    (given : Option String) : Except Fault Path :=
  let configured := (target.field? "output_path").bind Json.nonEmptyText?
  let chosen := (given.filter fun path => !path.isEmpty).orElse fun _ => configured
  let path := chosen.getD (defaultOutput (moduleName target))
  ((root.under (Path.ofString path)).resolveOn disk workingDirectory).mapError Fault.path

/-- The path to write a target to where there are no symbolic links. -/
def outputPath (target : Json) (root : Path) (workingDirectory : List String)
    (given : Option String) : Except Fault Path :=
  outputPathOn .plain target root workingDirectory given

end Target

end HeaderBind
