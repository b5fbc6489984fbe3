import HeaderBind.CommandLine.Help
import HeaderBind.Text.Quoted

/-!
# `HeaderBind.CommandLine.Stop`: ends before any command is run

The words of a command line may ask for the help text or the version, or they may be unusable. Each
of these ends the program, the first two with success. What is printed is laid out for a width.
-/

set_option autoImplicit false

namespace HeaderBind.CommandLine

open HeaderBind.Text (quoted)

/-- Why the words of a command line cannot be used. -/
inductive UsageFault where
  /-- A word abbreviates several options; their spellings. -/
  | ambiguous (word : String) (spellings : List String)
  /-- An option that takes no value has one. -/
  | superfluousValue (option : OptionSpec) (value : String)
  /-- An option that takes a value has none. -/
  | missingValue (option : OptionSpec)
  | missingOptions (options : List OptionSpec)
  | missingCommand
  | unknownCommand (word : String)
  /-- Words that nobody knows. -/
  | unrecognized (words : List String)
  deriving DecidableEq, Repr

/-- The wording of a fault. -/
def UsageFault.message : UsageFault → String
  | ambiguous word spellings =>
    let matching := ", ".intercalate spellings
    s!"ambiguous option: {word} could match {matching}"
  | superfluousValue option value =>
    s!"argument {option.shown}: ignored explicit argument {quoted value}"
  | missingValue option => s!"argument {option.shown}: expected one argument"
  | missingOptions options =>
    let listed := ", ".intercalate (options.map OptionSpec.shown)
    s!"the following arguments are required: {listed}"
  | missingCommand => "the following arguments are required: command"
  | unknownCommand word =>
    let choices := ", ".intercalate (CommandName.all.map fun name => quoted name.word)
    s!"argument command: invalid choice: {quoted word} (choose from {choices})"
  | unrecognized words =>
    let listed := " ".intercalate words
    s!"unrecognized arguments: {listed}"

/-- Lines as a text, each one ended. -/
def endedLines (lines : List String) : String :=
  String.join (lines.map (· ++ "\n"))

/-- The end of the program before any command is run. -/
inductive Stop where
  /-- The words cannot be used by the grammar that reads them. -/
  | misuse (grammar : Grammar) (fault : UsageFault)
  /-- The help text of a grammar is asked for. -/
  | help (grammar : Grammar)
  /-- The version is asked for. -/
  | version
  deriving DecidableEq, Repr

namespace Stop

/-- The status that the program ends with. -/
def status : Stop → Nat
  | misuse .. => 2
  | help _ | version => 0

/-- What is printed. -/
def printed (width : Nat) : Stop → String
  | misuse .. => ""
  | help grammar => endedLines (grammar.help width)
  | version => endedLines (versionLines width)

/-- What is printed about an error: the usage of the grammar and the fault. -/
def complaints (width : Nat) : Stop → String
  | misuse grammar fault =>
    endedLines (grammar.usage width ++ [s!"{grammar.program}: error: {fault.message}"])
  | help _ | version => ""

end Stop

end HeaderBind.CommandLine
