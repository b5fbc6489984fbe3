import HeaderBind.CommandLine.Grammar
import HeaderBind.Text.Paragraph

/-!
# `HeaderBind.CommandLine.Help`: the texts about a command line

The usage names what can be said, the help text explains it. Both follow from a grammar and are
laid out for a width in columns.

* The usage is one line if it fits. Otherwise the options and the commands start lines of their
  own, indented to the column behind the name of the program unless that name takes more than three
  quarters of the width.
* In the help text the explanations stand in one column, which lies as far to the left as the
  options and commands allow, but no further to the right than the width allows.
-/

set_option autoImplicit false

namespace HeaderBind.CommandLine

open HeaderBind.Text (Piece blanks fill fillFrom pieces)

/-- The least number of columns that prose is laid out for. -/
def leastProseWidth : Nat := 11

namespace OptionSpec

/-- A spelling of an option with the word for its value behind it, if it takes one. -/
def withPlaceholder (option : OptionSpec) (spelling : String) : List String :=
  if option.kind = .value then [spelling, placeholder spelling] else [spelling]

/-- How the usage shows an option: by its first spelling, in brackets if it may be left out. -/
def usagePieces (option : OptionSpec) : List Piece :=
  let words := option.withPlaceholder (option.spellings.headD "")
  if option.required then words.map .word
  else
    let together := " ".intercalate words
    [.word s!"[{together}]"]

/-- How the help text shows an option: by all its spellings. -/
def invocation (option : OptionSpec) : String :=
  ", ".intercalate (option.spellings.map fun spelling =>
    " ".intercalate (option.withPlaceholder spelling))

end OptionSpec

namespace Grammar

/-- The commands to choose from. -/
def choices (grammar : Grammar) : String :=
  "\x7b" ++ ",".intercalate (grammar.commands.map Prod.fst) ++ "\x7d"

/-- How the usage shows that a command with words of its own has to follow. -/
def commandPieces (grammar : Grammar) : List Piece :=
  if grammar.commands.isEmpty then [] else [.word grammar.choices, .word "..."]

/-- The usage, as lines. -/
def usage (grammar : Grammar) (width : Nat) : List String :=
  let start := "usage: " ++ grammar.program
  let options := grammar.options.flatMap OptionSpec.usagePieces
  let commands := grammar.commandPieces
  let whole := (options ++ commands).foldl (fun line piece => piece.behind line) start
  if whole.length ≤ width then [whole]
  else if 4 * start.length ≤ 3 * width then
    let indent := blanks (start.length + 1)
    fillFrom width indent start options ++ fill width indent commands
  else
    let indent := blanks "usage: ".length
    let together := fill width indent (options ++ commands)
    if together.length ≤ 1 then start :: together
    else start :: fill width indent options ++ fill width indent commands

end Grammar

/-- A line of the help text about one thing, and what it says about it. -/
structure HelpEntry where
  indent : Nat
  shown : String
  /-- May be empty. -/
  purpose : String
  deriving DecidableEq, Repr

/-- The lines of an entry whose explanation starts at a column: on the first line if what is shown
leaves two blanks in front of it, and below otherwise. -/
def HelpEntry.lines (entry : HelpEntry) (column width : Nat) : List String :=
  let head := blanks entry.indent ++ entry.shown
  let limit := max width (column + leastProseWidth)
  match pieces entry.purpose with
  | [] => [head]
  | first :: rest =>
    if head.length + 2 ≤ column then
      fillFrom limit (blanks column) (head ++ blanks (column - head.length) ++ first.text) rest
    else head :: fill limit (blanks column) (first :: rest)

namespace Grammar

/-- The entries about the commands: a heading for all of them, and each of them below it. -/
def commandEntries (grammar : Grammar) : List HelpEntry :=
  if grammar.commands.isEmpty then []
  else ⟨2, grammar.choices, ""⟩ :: grammar.commands.map fun (word, purpose) => ⟨4, word, purpose⟩

/-- The entries about the options. -/
def optionEntries (grammar : Grammar) : List HelpEntry :=
  grammar.options.map fun option => ⟨2, option.invocation, option.purpose⟩

/-- The column that explanations start at: two blanks behind the longest of what is shown, but no
further than the twenty-fifth column, nor further than twenty columns from the right. -/
def purposeColumn (grammar : Grammar) (width : Nat) : Nat :=
  let longest := ((grammar.commandEntries ++ grammar.optionEntries).map fun entry =>
    entry.shown.length).foldl max 0
  min (longest + 4) (min 24 (max (width - 20) 4))

/-- A part of the help text with a heading; nothing if there are no entries. -/
def helpSection (grammar : Grammar) (width : Nat) (heading : String) (entries : List HelpEntry) :
    List String :=
  if entries.isEmpty then []
  else "" :: s!"{heading}:" ::
    entries.flatMap fun entry => entry.lines (grammar.purposeColumn width) width

/-- A paragraph of the help text, with an empty line in front. -/
def paragraph (width : Nat) (text : String) : List String :=
  match fill (max width leastProseWidth) "" (pieces text) with
  | [] => []
  | lines => "" :: lines

/-- The help text, as lines. -/
def help (grammar : Grammar) (width : Nat) : List String :=
  grammar.usage width ++ paragraph width grammar.purpose ++
    grammar.helpSection width "positional arguments" grammar.commandEntries ++
    grammar.helpSection width "options" grammar.optionEntries

end Grammar

/-- The name and the version of the program, as lines. -/
def versionLines (width : Nat) : List String :=
  fill (max width leastProseWidth) "" (pieces s!"{programName} {version}")

end HeaderBind.CommandLine
