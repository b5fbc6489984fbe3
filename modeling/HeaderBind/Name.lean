import HeaderBind.Text.Blank

/-!
# `HeaderBind.Name`: identifiers

A name is an ASCII identifier. All three tests (`isName`, `isModuleName`, `isStructName`) judge a
text up to one line feed at its end, as the matcher of the configuration schema does too, so
`"A\n"` passes. A name that the generated language reserves is told apart on the whole text.
-/

set_option autoImplicit false

namespace HeaderBind.Name

open HeaderBind.Text

/-- Whether an identifier may start with `c`. -/
def isStartChar (c : Char) : Bool :=
  c.isAlpha || c == '_'

/-- Whether `c` may stand in an identifier. -/
def isNameChar (c : Char) : Bool :=
  c.isAlphanum || c == '_'

/-- Whether the characters are an identifier, nothing before or after it. -/
def isIdentifier : List Char → Bool
  | [] => false
  | c :: rest => isStartChar c && rest.all isNameChar

/-- The characters less one line feed at the end. -/
def dropFinalNewline (cs : List Char) : List Char :=
  if cs.getLast? = some '\n' then cs.dropLast else cs

/-- Whether a text is a name. -/
def isName (s : String) : Bool :=
  isIdentifier (dropFinalNewline s.toList)

/-- Whether a text is the name of a module: names with points between them. -/
def isModuleName (s : String) : Bool :=
  ((dropFinalNewline s.toList).splitOn '.').all isIdentifier

/-- The word in front of the name of a structure. -/
def structTag : List Char :=
  "struct".toList

/-- What follows the word `struct` and at least one blank, if they are in front. -/
def afterStructTag? (cs : List Char) : Option (List Char) :=
  match structTag.isPrefixOf? cs with
  | some (c :: rest) => if isBlank c then some (rest.dropWhile isBlank) else none
  | _ => none

/-- Whether a text names a structure: a name, the word `struct` possibly in front. -/
def isStructName (s : String) : Bool :=
  let cs := dropFinalNewline s.toList
  isIdentifier cs || ((afterStructTag? cs).any isIdentifier)

/-- The name of a structure without the blanks around it and the word `struct` in front. -/
def structBase (s : String) : String :=
  let cs := trimChars s.toList
  String.ofList ((afterStructTag? cs).getD cs)

/-- The words that the generated language reserves. -/
def keywords : List String :=
  ["False", "None", "True", "and", "as", "assert", "async", "await", "break", "class", "continue",
    "def", "del", "elif", "else", "except", "finally", "for", "from", "global", "if", "import",
    "in", "is", "lambda", "nonlocal", "not", "or", "pass", "raise", "return", "try", "while",
    "with", "yield"]

/-- Whether a text is reserved. -/
def isKeyword (s : String) : Bool :=
  keywords.contains s

/-- Whether the generated module may bind the name. -/
def isBindable (s : String) : Bool :=
  isName s && !isKeyword s

end HeaderBind.Name
