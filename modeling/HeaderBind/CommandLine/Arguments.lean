import HeaderBind.CommandLine.Stop
import HeaderBind.Entries
import HeaderBind.Name
import HeaderBind.Text.Digit

/-!
# `HeaderBind.CommandLine.Arguments`: reading the words of a command line

A word that starts with a dash is an option, spelled in full or by any beginning that only one
option has; a value may follow in the same word behind an equals sign, or as the next word if that
is no option. Whatever stands behind an option of one letter in the same word is read as further
letters. Two dashes alone end the options. All words are told apart before any of them takes
effect, so an ambiguous word is reported first; after that the words take effect from left to
right, and asking for help or for the version ends the reading at once.

The first word that is no option names the command, and all words behind it are read by the
grammar of the command. Words that nobody knows are reported only when everything else was fine.
-/

set_option autoImplicit false

namespace HeaderBind.CommandLine

open HeaderBind.Text (isDecimalDigit)

/-- What follows an option in its own word. -/
inductive Attached where
  /-- Nothing. -/
  | nothing
  /-- A value behind an equals sign. -/
  | value (text : String)
  /-- Further letters behind an option of one letter, at least one of them. -/
  | letters (text : String)
  deriving DecidableEq, Repr

/-- A word of the command line. -/
inductive Word where
  /-- A word that is no option. -/
  | plain (text : String)
  /-- The mark after which no word is an option. -/
  | endOfOptions
  /-- An option. -/
  | option (spec : OptionSpec) (attached : Attached)
  /-- An option that the grammar does not know. -/
  | unknown (text : String)
  deriving DecidableEq, Repr

/-- The word as it was given, as far as that matters for words nobody knows. -/
def Word.given : Word → String
  | plain text => text
  | endOfOptions => "--"
  | option spec _ => spec.shown
  | unknown text => text

namespace Grammar

/-- Every spelling of every option. -/
def spellings (grammar : Grammar) : List (String × OptionSpec) :=
  grammar.options.flatMap fun option => option.spellings.map fun spelling => (spelling, option)

/-- The option of a spelling. -/
def optionOf? (grammar : Grammar) (spelling : String) : Option OptionSpec :=
  (grammar.spellings.find? fun entry => entry.1 == spelling).map Prod.snd

end Grammar

/-- The part of a word in front of its first equals sign, and the part behind it if there is
one. -/
def splitEquals (word : String) : String × Option String :=
  let cs := word.toList
  match cs.dropWhile (· ≠ '=') with
  | _ :: value => (String.ofList (cs.takeWhile (· ≠ '=')), some (String.ofList value))
  | [] => (word, none)

/-- A value behind an equals sign, if there is one. -/
def attachedValue : Option String → Attached
  | some text => .value text
  | none => .nothing

/-- What stands behind the full spelling of an option and an equals sign. Behind a single letter
the sign counts for nothing, and what follows it are further letters. -/
def attachedTo (spelling text : String) : Attached :=
  match spelling.toList with
  | [_, _] => if text.isEmpty then .value text else .letters text
  | _ => .value text

/-- Whether a word is a negative number: a dash and digits, possibly with a point before the last
of them. -/
def isNegativeNumber (word : String) : Bool :=
  match Name.dropFinalNewline word.toList with
  | '-' :: body =>
    match body.dropWhile isDecimalDigit with
    | [] => !body.isEmpty
    | '.' :: places => !places.isEmpty && places.all isDecimalDigit
    | _ => false
  | _ => false

/-- The options whose spelling a word abbreviates, in the order of the grammar. A word with one
dash stands for the option of its first letter, and what follows are further letters. -/
def abbreviated (grammar : Grammar) (word : String) : List (String × OptionSpec × Attached) :=
  match word.toList with
  | '-' :: '-' :: _ =>
    let (start, value) := splitEquals word
    (grammar.spellings.filter fun entry => start.toList.isPrefixOf entry.1.toList).map
      fun entry => (entry.1, entry.2, attachedValue value)
  | dash :: letter :: letters =>
    grammar.spellings.filterMap fun entry =>
      if entry.1 = String.ofList [dash, letter] then
        some (entry.1, entry.2, .letters (String.ofList letters))
      else if word.toList.isPrefixOf entry.1.toList then some (entry.1, entry.2, .nothing)
      else none
  | _ => []

/-- A word that starts with a dash and is no full spelling of an option. -/
def classifyDashed (grammar : Grammar) (word : String) : Except Stop Word :=
  let (spelling, value) := splitEquals word
  match value, grammar.optionOf? spelling with
  | some text, some option => .ok (.option option (attachedTo spelling text))
  | _, _ =>
    match abbreviated grammar word with
    | [(_, option, attached)] => .ok (.option option attached)
    | [] =>
      if isNegativeNumber word || word.toList.contains ' ' then .ok (.plain word)
      else .ok (.unknown word)
    | several => .error (.misuse grammar (.ambiguous word (several.map Prod.fst)))

/-- What a word is. -/
def classify (grammar : Grammar) (word : String) : Except Stop Word :=
  match word.toList with
  | '-' :: _ :: _ =>
    match grammar.optionOf? word with
    | some option => .ok (.option option .nothing)
    | none => classifyDashed grammar word
  | _ => .ok (.plain word)

/-- What the words are. -/
def classifyAll (grammar : Grammar) : List String → Except Stop (List Word)
  | [] => .ok []
  | word :: words =>
    if word = "--" then .ok (.endOfOptions :: words.map .plain)
    else do
      let first ← classify grammar word
      let rest ← classifyAll grammar words
      .ok (first :: rest)

/-- What was said so far: the options with their values, and the words nobody knows. -/
structure Said where
  options : Entries String
  unknown : List String
  deriving DecidableEq, Repr

namespace Said

/-- Notes an option. -/
def note (said : Said) (option : OptionSpec) (value : String) : Said :=
  { said with options := Entries.put option.shown value said.options }

/-- Notes a word nobody knows. -/
def reject (said : Said) (word : String) : Said :=
  { said with unknown := said.unknown ++ [word] }

end Said

/-- The end of the program by letters behind an option of one letter. Each of them has to be the
letter of an option as well, and since every option of one letter asks for help, that is what they
come to. -/
def lettersStop (grammar : Grammar) (option : OptionSpec) : List Char → Stop
  | [] => .help grammar
  | letter :: rest =>
    match grammar.optionOf? (String.ofList ['-', letter]) with
    | some next => lettersStop grammar next rest
    | none => .misuse grammar (.superfluousValue option (String.ofList (letter :: rest)))

/-- The effect of an option without a value of its own. -/
def applyPlain (grammar : Grammar) (option : OptionSpec) (attached : Attached) (said : Said) :
    Except Stop Said :=
  match attached, option.kind with
  | .value text, _ => .error (.misuse grammar (.superfluousValue option text))
  | .letters text, _ => .error (lettersStop grammar option text.toList)
  | .nothing, .help => .error (.help grammar)
  | .nothing, .version => .error .version
  | .nothing, _ => .ok (said.note option "")

/-- The value that a text in the same word gives an option. Two dashes give the empty value, as if
they were the mark that ends the options. -/
def givenValue (text : String) : String :=
  if text = "--" then "" else text

/-- The effect of the words of a command, from left to right. -/
def consume (grammar : Grammar) : List Word → Said → Except Stop Said
  | [], said => .ok said
  | .option option attached :: words, said =>
    if option.kind = .value then
      match attached with
      | .value text | .letters text => consume grammar words (said.note option (givenValue text))
      | .nothing =>
        match words with
        | .plain text :: behind => consume grammar behind (said.note option text)
        | _ => .error (.misuse grammar (.missingValue option))
    else do
      let said ← applyPlain grammar option attached said
      consume grammar words said
  | word :: words, said => consume grammar words (said.reject word.given)

/-- Demands the options that are required. -/
def demandRequired (grammar : Grammar) (said : Said) : Except Stop Said :=
  let missing := grammar.options.filter fun option =>
    option.required && (Entries.get? said.options option.shown).isNone
  if missing.isEmpty then .ok said else .error (.misuse grammar (.missingOptions missing))

/-- Reads the words behind the name of a command. -/
def readCommand (name : CommandName) (words : List String) : Except Stop Said := do
  let classified ← classifyAll name.grammar words
  let said ← consume name.grammar classified ⟨[], []⟩
  demandRequired name.grammar said

/-- Reads the words from the name of a command on. -/
def readNamed (word : String) (words : List String) : Except Stop (CommandName × Said) :=
  match CommandName.ofWord? word with
  | some name => (readCommand name words).map fun said => (name, said)
  | none => .error (.misuse mainGrammar (.unknownCommand word))

/-- The effect of the words in front of the name of a command, and then of the others. The given
words are handed on as they are, next to what they are for the program itself. -/
def readFront : List (String × Word) → Said → Except Stop (CommandName × Said)
  | [], _ => .error (.misuse mainGrammar .missingCommand)
  | (given, .plain _) :: words, said =>
    (readNamed given (words.map Prod.fst)).map fun (name, behind) =>
      (name, { behind with unknown := said.unknown ++ behind.unknown })
  | (given, .endOfOptions) :: words, said =>
    if words.isEmpty then readFront words said else readNamed given (words.map Prod.fst)
  | (_, .option option attached) :: words, said => do
    let said ← applyPlain mainGrammar option attached said
    readFront words said
  | (given, .unknown _) :: words, said => readFront words (said.reject given)

/-- Reads the words of a command line: the command and what was said to it. -/
def read (words : List String) : Except Stop (CommandName × Said) := do
  let classified ← classifyAll mainGrammar words
  let (name, said) ← readFront (words.zip classified) ⟨[], []⟩
  if said.unknown.isEmpty then .ok (name, said)
  else .error (.misuse mainGrammar (.unrecognized said.unknown))

end HeaderBind.CommandLine
