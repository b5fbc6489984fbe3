/-!
# `HeaderBind.CommandLine.Grammar`: commands and their options

The program has three commands. Each has its options, and everything has a sentence that says what
it is for.
-/

set_option autoImplicit false

namespace HeaderBind.CommandLine

/-- What an option is for. -/
inductive OptionKind where
  /-- Shows the help text. -/
  | help
  /-- Shows the version. -/
  | version
  /-- Is either given or not. -/
  | switch
  /-- Takes a value. -/
  | value
  deriving DecidableEq, Repr

/-- An option, with all its spellings. -/
structure OptionSpec where
  spellings : List String
  kind : OptionKind
  required : Bool
  /-- What the help text says about it. -/
  purpose : String
  deriving DecidableEq, Repr

namespace OptionSpec

/-- How messages name an option. -/
def shown (option : OptionSpec) : String :=
  "/".intercalate option.spellings

/-- The word that stands for the value of an option: its spelling in capitals, without the dashes
in front and with underscores for the others. -/
def placeholder (spelling : String) : String :=
  String.ofList ((spelling.toList.dropWhile (· == '-')).map fun c =>
    if c = '-' then '_' else c.toUpper)

end OptionSpec

/-- What can be said to the program or to one of its commands. -/
structure Grammar where
  /-- How messages name it. -/
  program : String
  /-- What the help text says about the whole; may be empty. -/
  purpose : String
  /-- The commands one of which has to follow, and what the help text says about each. -/
  commands : List (String × String)
  options : List OptionSpec
  deriving DecidableEq, Repr

/-- The commands, in the order in which messages list them. -/
inductive CommandName where
  | generate
  | probe
  | listTargets
  deriving DecidableEq, Repr

namespace CommandName

/-- Every command. -/
def all : List CommandName :=
  [generate, probe, listTargets]

/-- The word for a command. -/
def word : CommandName → String
  | generate => "generate"
  | probe => "probe"
  | listTargets => "list-targets"

/-- What the help text says about a command. -/
def purpose : CommandName → String
  | generate => "Probe the host toolchain and write generated modules."
  | probe => "Run the layout probe and print the discovered facts as JSON."
  | listTargets => "List targets from config."

/-- The command of a word. -/
def ofWord? (word : String) : Option CommandName :=
  all.find? fun name => name.word == word

end CommandName

/-- The name of the program. -/
def programName : String := "abi_h2py"

/-- The version of the program. -/
def version : String := "1.0.0"

/-- The option that asks for help. -/
def helpOption : OptionSpec :=
  ⟨["-h", "--help"], .help, false, "show this help message and exit"⟩

/-- The option that asks for the version. -/
def versionOption : OptionSpec :=
  ⟨["--version"], .version, false, "show program's version number and exit"⟩

/-- An option with a value that may be left out. -/
def valueOption (spelling purpose : String) : OptionSpec :=
  ⟨[spelling], .value, false, purpose⟩

/-- An option with a value that has to be given. -/
def requiredOption (spelling purpose : String) : OptionSpec :=
  ⟨[spelling], .value, true, purpose⟩

/-- An option that is given or not. -/
def switchOption (spelling purpose : String) : OptionSpec :=
  ⟨[spelling], .switch, false, purpose⟩

/-- The option that names the directory paths start from. -/
def rootOption : OptionSpec :=
  valueOption "--repo-root"
    "Repository root used to resolve relative paths (default: current directory)."

/-- The option that names the configuration. -/
def configOption : OptionSpec :=
  requiredOption "--config" "Path to abi_h2py config JSON."

/-- What can be said to the program in front of a command. -/
def mainGrammar : Grammar where
  program := programName
  purpose :=
    "Generate dependency-free Python modules from C header constants and structure layouts."
  commands := CommandName.all.map fun name => (name.word, name.purpose)
  options := [helpOption, versionOption]

/-- The options of a command. -/
def CommandName.options : CommandName → List OptionSpec
  | generate => [
    helpOption, rootOption, configOption,
    valueOption "--target" "Optional target name. If omitted, all targets are generated.",
    valueOption "--output" "Override the output path (only valid with --target).",
    switchOption "--dry-run" "Do not write files; report what would change.",
    switchOption "--check" "Return non-zero if generated output is out of date.",
    switchOption "--print-diff" "Print unified diff of generated changes."]
  | probe => [
    helpOption, rootOption, configOption,
    requiredOption "--target" "Target name from config targets map.",
    valueOption "--output" "Write probe facts JSON to path."]
  | listTargets => [helpOption, configOption]

/-- What can be said to a command. -/
def CommandName.grammar (name : CommandName) : Grammar where
  program := s!"{programName} {name.word}"
  purpose := ""
  commands := []
  options := name.options

end HeaderBind.CommandLine
