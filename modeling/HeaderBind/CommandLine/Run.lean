import HeaderBind.CommandLine.Arguments
import HeaderBind.Generation

/-!
# `HeaderBind.CommandLine.Run`: running a command

A command reports what it does line by line and ends with a status: zero, or one if files were to
be checked and one of them is out of date. An error that is about the user's input ends it with a
message and the status two; any other error passes through.
-/

set_option autoImplicit false

namespace HeaderBind.CommandLine

/-- What to generate, and how. -/
structure GenerateOptions where
  root : String
  config : String
  target : Option String
  output : Option String
  dryRun : Bool
  check : Bool
  printDifference : Bool
  deriving DecidableEq, Repr

/-- What to probe. -/
structure ProbeOptions where
  root : String
  config : String
  target : String
  output : Option String
  deriving DecidableEq, Repr

/-- A command with its options. -/
inductive Invocation where
  | generate (options : GenerateOptions)
  | probe (options : ProbeOptions)
  | listTargets (config : String)
  deriving DecidableEq, Repr

/-- The value of an option. -/
def Said.value? (said : Said) (spelling : String) : Option String :=
  Entries.get? said.options spelling

/-- Whether an option was given. -/
def Said.isGiven (said : Said) (spelling : String) : Bool :=
  (said.value? spelling).isSome

/-- The command that was asked for. -/
def Invocation.ofSaid (name : CommandName) (said : Said) : Invocation :=
  let root := (said.value? "--repo-root").getD "."
  let config := (said.value? "--config").getD ""
  match name with
  | .generate =>
    .generate
      { root := root
        config := config
        target := said.value? "--target"
        output := said.value? "--output"
        dryRun := said.isGiven "--dry-run"
        check := said.isGiven "--check"
        printDifference := said.isGiven "--print-diff" }
  | .probe =>
    .probe ⟨root, config, (said.value? "--target").getD "", said.value? "--output"⟩
  | .listTargets => .listTargets config

/-- The line that reports on a target. -/
def outcomeLine (outcome : Generation.Outcome) : String :=
  s!"[{outcome.target}] generate: module={outcome.module} status={outcome.status.name} " ++
    s!"path={outcome.path.text}"

/-- An option that was given and is not empty. -/
def nonEmpty (value : Option String) : Option String :=
  value.filter fun text => !text.isEmpty

section

variable [Interpreter]

/-- Generates targets in order and reports on each: the status to end with. -/
def generateAll (config : Json) (root : Path) (options : GenerateOptions) :
    List String → Action Nat
  | [] => pure 0
  | name :: names => do
    let mode := WriteMode.ofSwitches options.check options.dryRun
    let outcome ← Generation.generate config root name options.output mode
    Action.printLine (outcomeLine outcome)
    if options.printDifference && !outcome.difference.isEmpty then
      Action.printLine outcome.difference
    let status ← generateAll config root options names
    pure (if options.check && outcome.status = .drift then 1 else status)

/-- The command that generates modules. -/
def runGenerate (options : GenerateOptions) : Action Nat := do
  let root ← Action.resolve options.root
  let config ← Config.load (← Action.resolve options.config)
  let names ← Action.ofExcept .ofTarget (Target.names config options.target)
  if (nonEmpty options.output).isSome && names.length ≠ 1 then
    throw (.configuration .severalTargets)
  generateAll config root options names

/-- The command that probes a target. -/
def runProbe (options : ProbeOptions) : Action Nat := do
  let root ← Action.resolve options.root
  let config ← Config.load (← Action.resolve options.config)
  let (report, count) ← Generation.probe config root options.target
  match nonEmpty options.output with
  | some output =>
    Json.save (← Action.resolve output) report
    Action.printLine s!"[{options.target}] probe: wrote {count} declarations to {output}"
  | none =>
    let text ← Action.ofExcept (.ofText .writing) report.renderChecked
    Action.printLine text
  pure 0

/-- The lines that list targets. -/
def targetLines (config : Json) : List String → Except Target.Fault (List String)
  | [] => .ok []
  | name :: names => do
    let target ← Target.find config (some name)
    let lines ← targetLines config names
    .ok (s!"{name}\t{Target.moduleName target}" :: lines)

/-- The command that lists targets. -/
def runListTargets (path : String) : Action Nat := do
  let config ← Config.load (← Action.resolve path)
  let names ← Action.ofExcept .ofTarget (Target.names config none)
  let lines ← Action.ofExcept .ofTarget (targetLines config names)
  Action.print (endedLines lines)
  pure 0

/-- Runs a command. -/
def runInvocation : Invocation → Action Nat
  | .generate options => runGenerate options
  | .probe options => runProbe options
  | .listTargets config => runListTargets config

/-- Runs a command; an error about the user's input becomes a message. -/
def runReporting (invocation : Invocation) : Action Nat := fun host =>
  match runInvocation invocation host with
  | .ok status host => .ok status host
  | .error error host =>
    if error.isReported then
      (Action.complain s!"{programName} error: {error.message}\n" >>= fun _ => pure 2) host
    else .error error host

end

/-- The number of columns of a terminal that says nothing about itself. -/
def usualColumns : Nat := 80

/-- The number of columns of the terminal, as the environment gives it. -/
def terminalColumns (host : Host) : Nat :=
  match (host.setting? "COLUMNS").map Numeral.read with
  | some (.ok columns) => if 0 < columns then columns.toNat else usualColumns
  | _ => usualColumns

/-- The width that texts about the command line are laid out for: two columns stay free. -/
def textWidth (host : Host) : Nat :=
  terminalColumns host - 2

/-- How the program ends: by the status of a command, or before any command is run. -/
inductive Ending where
  | status (code : Nat)
  | stopped (code : Nat)
  deriving DecidableEq, Repr

/-- Runs the program on the words of a command line. -/
def run [Interpreter] (words : List String) : Action Ending :=
  match read words with
  | .ok (name, said) => do
    let status ← runReporting (.ofSaid name said)
    pure (.status status)
  | .error stop => do
    let width := textWidth (← get)
    Action.print (stop.printed width)
    Action.complain (stop.complaints width)
    pure (.stopped stop.status)

end HeaderBind.CommandLine
