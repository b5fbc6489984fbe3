/-!
# `HeaderBind.Text.ShellWord`: words of a shell command

A recorded command is one line of text that a POSIX shell would split back into the words of the
command. A word of safe characters stands as it is; every other word is put between single quotes,
where only the single quote itself needs care: it is written between double quotes, outside.
-/

set_option autoImplicit false

namespace HeaderBind.ShellWord

/-- Whether `c` needs no quotes in a shell word. -/
def isSafe (c : Char) : Bool :=
  c.isAlphanum || "_@%+=:,./-".toList.contains c

/-- One character of a word between single quotes. -/
def quoteChar (c : Char) : List Char :=
  if c = '\'' then ['\'', '"', '\'', '"', '\''] else [c]

/-- A word as it is written in a command. -/
def quote (word : String) : String :=
  let cs := word.toList
  if !cs.isEmpty && cs.all isSafe then word
  else String.ofList ('\'' :: cs.flatMap quoteChar ++ ['\''])

/-- A command as one line: its words, quoted where needed, with one space between them. -/
def join (words : List String) : String :=
  " ".intercalate (words.map quote)

end HeaderBind.ShellWord
