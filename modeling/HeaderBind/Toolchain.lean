import HeaderBind.Compiler
import HeaderBind.Text.ShellWord

/-!
# `HeaderBind.Toolchain`: compiling, linking and running a probe

A probe program is written into a directory of its own, compiled, linked and run, one process a
stage, and each stage only after the one before succeeded. The directory is removed whatever
happens. Every command is recorded before it is launched, in the form a shell would take it. A
command with a zero character in one of its words is recorded and cannot be launched.

A toolchain looks for its compiler once and keeps what it found, also for later probes.
-/

set_option autoImplicit false

namespace HeaderBind

/-- A host together with what one toolchain keeps: the commands that it recorded, and the compiler,
once it was found. -/
structure Bench where
  host : Host
  recorded : List String
  found : Option String

/-- A host with a toolchain that was not used so far. -/
def Bench.ofHost (host : Host) : Bench :=
  ⟨host, [], none⟩

/-- A step of a run of a toolchain. -/
abbrev BenchAction := EStateM Error Bench

namespace Toolchain

/-- How the names of scratch directories start. -/
def scratchStem : String := "abi_h2py_probe_"

/-- The name of a scratch directory among those that are taken. The system fills in eight
characters; should they be taken, a longer name than any there is serves. -/
def scratchName (taken : List String) : String :=
  let usual := scratchStem ++ "XXXXXXXX"
  if taken.contains usual then
    let longest := (taken.map String.length).foldl max 0
    String.ofList (scratchStem.toList ++ List.replicate (longest + 1) 'X')
  else usual

/-- Launches a process: takes its answer and notes the command. -/
def launch (command : List String) : BenchAction Launch :=
  modifyGet fun bench =>
    let host := { bench.host with
      launched := bench.host.launched ++ [command], answers := bench.host.answers.tail }
    (bench.host.answers.headD .silent, { bench with host := host })

/-- Whether every word of a command can be handed to a process: none holds a zero character. -/
def isLaunchable (command : List String) : Bool :=
  command.all fun word => !word.toList.contains '\x00'

/-- Refuses a command that cannot be handed to a process. -/
def demandLaunchable (command : List String) : BenchAction Unit :=
  if isLaunchable command then pure () else throw (.ofPath .zeroCharacter)

/-- What a failed process says about itself: its diagnostics, else its output, else its status. -/
def failureReason (status : Int) (output diagnostics : String) : String :=
  let said := Text.trim diagnostics
  if !said.isEmpty then said
  else
    let said := Text.trim output
    if !said.isEmpty then said else s!"exit status {status}"

/-- Records and launches the command of a stage; the output of the process, if it succeeds. What
makes a command impossible to launch, or an output impossible to read, is no failure of the
stage. -/
def execute (stage : Stage) (command : List String) : BenchAction String := do
  let text := ShellWord.join command
  modify fun bench => { bench with recorded := bench.recorded ++ [text] }
  demandLaunchable command
  match ← launch command with
  | .failed reason => throw (.toolchain stage (.failed text reason))
  | .garbled fault => throw (.encoding fault)
  | .finished status output diagnostics =>
    if status = 0 then pure output
    else throw (.toolchain stage (.failed text (failureReason status output diagnostics)))

/-- Keeps the compiler that was found. -/
def keep (found : String) : BenchAction String := do
  modify fun bench => { bench with found := some found }
  pure found

/-- The compiler that was found before, or else the one that the settings lead to. -/
def compiler (settings : ToolchainSettings) : BenchAction String := do
  let bench ← get
  match bench.found with
  | some found => pure found
  | none =>
    match Compiler.resolve bench.host settings.compiler.nonEmptyText? settings.candidates with
    | .ok found => keep found
    | .error error => throw error

/-- The files of a probe in its directory. -/
structure ProbeFiles where
  source : Path
  object : Path
  executable : Path

/-- The files of a probe in a directory, as a family of systems names them. -/
def probeFiles (family : Family) (directory : Location) : ProbeFiles :=
  let file := fun name => (⟨.root, directory ++ [name]⟩ : Path)
  match family with
  | .posix => ⟨file "probe.c", file "probe.o", file "probe"⟩
  | .windows => ⟨file "probe.c", file "probe.obj", file "probe.exe"⟩

/-- The command that compiles. -/
def compileCommand (settings : ToolchainSettings) (compiler : String) (files : ProbeFiles) :
    List String :=
  [compiler, "-c", files.source.text, "-o", files.object.text] ++
    settings.includeDirectories.flatMap (fun directory => ["-I", directory]) ++
    settings.compilerFlags

/-- The command that links. -/
def linkCommand (settings : ToolchainSettings) (compiler : String) (files : ProbeFiles) :
    List String :=
  [compiler, files.object.text, "-o", files.executable.text] ++ settings.linkerFlags

/-- The command that runs the probe. -/
def runCommand (files : ProbeFiles) : List String :=
  [files.executable.text]

/-- Notes the text of the source file that a compiler is about to read, if its command can be
launched. -/
def noteCompiled (source : Path) (command : List String) : BenchAction Unit :=
  modify fun bench =>
    match isLaunchable command, bench.host.readBytes source with
    | true, .ok content =>
      let text := (Utf8.decode content).toOption.getD ""
      { bench with host := { bench.host with compiled := bench.host.compiled ++ [text] } }
    | _, _ => bench

/-- The three stages on the files of a probe. -/
def stages (settings : ToolchainSettings) (files : ProbeFiles) : BenchAction String := do
  let found ← compiler settings
  let command := compileCommand settings found files
  noteCompiled files.source command
  discard <| execute .compile command
  let found ← compiler settings
  discard <| execute .link (linkCommand settings found files)
  execute .run (runCommand files)

/-- Changes the files of the host at hand. -/
def changeTree (change : FileTree → FileTree) : BenchAction Unit :=
  modify fun bench => { bench with host := { bench.host with tree := change bench.host.tree } }

/-- What a probe program prints. Its scratch directory is gone afterwards, also after a failure. -/
def probe (settings : ToolchainSettings) (source : String) : BenchAction String := do
  let bench ← get
  let parent := bench.host.scratchRoot
  let directory := parent ++ [scratchName (bench.host.tree.names parent)]
  let files := probeFiles bench.host.family directory
  changeTree fun tree =>
    (tree.put directory .directory).put files.source.parts (.file (Utf8.encode source))
  tryFinally (stages settings files) (changeTree fun tree => tree.remove directory)

/-- Runs the steps of a toolchain on a host: the result and the commands that were recorded. -/
def onHost {α : Type} (act : BenchAction α) : Action (α × List String) := fun host =>
  match act (.ofHost host) with
  | .ok value bench => .ok (value, bench.recorded) bench.host
  | .error error bench => .error error bench.host

end Toolchain

end HeaderBind
