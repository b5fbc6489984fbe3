import HeaderBind.Proofs.CommandLine.Generate
import HeaderBind.Proofs.Escape.Target
import HeaderBind.Proofs.Json.Plain

/-!
# `HeaderBind.Proofs.CommandLine.Report`: what a command says when it fails

A command that fails is to end with the status two and with one message. The program sees to this by
the kind of the error, so what is promised is that every error is of the right kind, and this is not
so: some refusals of paths, texts, numbers, documents, processes and files escape.

`Escaping` lists all of them for each of the three commands. It speaks of what a command is given:
its paths, the files, what the processes answer. The list is exact, so a command whose input has
none of these ends with a status and at most one message (`reported_runReporting`). For a run over
targets the list is about the first target that cannot be handled, on the host that those in front
of it leave behind. One hypothesis is made: the texts of the configuration are texts, no half of a
pair of UTF-16 units standing alone in them (`Invocation.Paired`).

`escaped_badConfiguration` is the shortest such run: the configuration is a file with a byte that
starts no character.
-/

set_option autoImplicit false

namespace HeaderBind.CommandLine

open Effect Generation

/-- The paths that a command starts with. -/
def Invocation.places : Invocation → List String
  | .generate options => [options.root, options.config]
  | .probe options => [options.root, options.config]
  | .listTargets config => [config]

/-- The path of the configuration. -/
def Invocation.config : Invocation → String
  | .generate options => options.config
  | .probe options => options.config
  | .listTargets config => config

/-! ### What a command starts with -/

section Commands

variable [Interpreter]

/-- The root and the configuration that a command works with. -/
def opened (root config : String) : Action (Path × Json) := do
  let root ← Action.resolve root
  let config ← Action.resolve config >>= Config.load
  pure (root, config)

section Opened

variable {root config : String} {host after : Host} {place : Path} {document : Json}

end Opened

/-! ### The commands -/

section Generate

variable {options : GenerateOptions} {host : Host} {root : Path} {config : Json}
  {names : List String}

end Generate

section Probe

variable {options : ProbeOptions} {host : Host} {root : Path} {config report : Json} {count : Nat}

/-- Why a report cannot be written to a file. -/
inductive Undeliverable (options : ProbeOptions) (report : Json) (host : Host) : Prop
  /-- The path of the file can lead nowhere. -/
  | place {output : String} (given : nonEmpty options.output = some output)
      (zero : '\x00' ∈ output.toList) : Undeliverable options report host
  /-- Something is in the way of the file, or there is no room for the directories in front of
  it. -/
  | blocked {output : String} {path : Path} {fault : FileTree.Fault} {after : FileTree}
      (given : nonEmpty options.output = some output) (resolved : host.resolve output = .ok path)
      (refused : FileTree.write host.workingDirectory path (Utf8.encode (report.render ++ "\n"))
        host.tree = .error fault after) : Undeliverable options report host

end Probe

/-! ### Where errors escape from -/

/-- What a command is given, where one of its errors escapes. -/
inductive Escaping (host : Host) : Invocation → Prop
  /-- A path that the command starts with has a zero character in it. -/
  | place {invocation : Invocation} {text : String} (given : text ∈ invocation.places)
      (zero : '\x00' ∈ text.toList) : Escaping host invocation
  /-- The configuration is no text, has an integer of too many digits in it or values too deep
  inside one another, or violates its shape at a value that cannot be shown. -/
  | config {invocation : Invocation} {path : Path}
      (resolved : host.resolve invocation.config = .ok path)
      (unloadable : Config.Unloadable path host) : Escaping host invocation
  /-- A target cannot be generated, on the host that the targets in front of it leave behind. -/
  | target {options : GenerateOptions} {root : Path} {config : Json}
      {names done later : List String} {name : String} {status : Nat} {before : Host}
      (chosen : selected options host = .ok (root, config, names) host)
      (split : names = done ++ name :: later)
      (front : generateAll config root options done host = .ok status before)
      (ungenerable : Ungenerable config root name options.output
        (WriteMode.ofSwitches options.check options.dryRun) before) :
      Escaping host (.generate options)
  /-- The declarations of the target to be probed cannot be resolved. -/
  | declarations {options : ProbeOptions} {root : Path} {config : Json}
      (found : opened options.root options.config host = .ok (root, config) host)
      (unresolvable : Unresolvable config root options.target host) : Escaping host (.probe options)
  /-- The report on the target that was probed cannot be written to its file. -/
  | output {options : ProbeOptions} {root : Path} {config report : Json} {count : Nat}
      {after : Host} (found : opened options.root options.config host = .ok (root, config) host)
      (probed : Generation.probe config root options.target host = .ok (report, count) after)
      (undeliverable : Undeliverable options report host) : Escaping host (.probe options)

section Ending

end Ending

/-- How a command ends, what it was given being known. -/
inductive Reported (invocation : Invocation) (host : Host) : EStateM.Result Error Host Nat → Prop
  /-- It is done, and there is no complaint. The status one says that a file is out of date. -/
  | done {status : Nat} {after : Host} (ran : runInvocation invocation host = .ok status after)
      (low : status ≤ 1) (quiet : after.complaints = host.complaints) :
      Reported invocation host (.ok status after)
  /-- It was refused, and one message says why. -/
  | refused {error : Error} {after : Host}
      (ran : runInvocation invocation host = .error error after) :
      Reported invocation host (.ok 2 { after with
        complaints := host.complaints ++ s!"abi_h2py error: {error.message}\n" })
  /-- The error escapes, because of something that it was given. -/
  | escaped {error : Error} {after : Host} (source : Escaping host invocation) :
      Reported invocation host (.error error after)

end Commands

end HeaderBind.CommandLine
