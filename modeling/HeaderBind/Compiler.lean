import HeaderBind.Host

/-!
# `HeaderBind.Compiler`: finding the compiler

The compiler is the first candidate that can be found: the configured one, the configured
candidates, those that the environment names, and the usual ones. A candidate may use variables
and the home directory. With a separator in it, it is a path and has to exist; without one it is
the name of a command and is searched for.
-/

set_option autoImplicit false

namespace HeaderBind.Compiler

/-- The texts without the blanks around them, blank ones left out, each only where it first
occurs. `seen` holds those that have occurred already. -/
def distinct : (seen : List String) → List String → List String
  | _, [] => []
  | seen, raw :: rest =>
    let value := Text.trim raw
    if value.isEmpty || seen.contains value then distinct seen rest
    else value :: distinct (seen ++ [value]) rest

/-- The variables of the environment that name a compiler. -/
def compilerVariables : List String :=
  ["ABI_H2PY_CC", "CC"]

/-- The compilers that are usual on a family of systems. -/
def usual : Family → List String
  | .windows => ["gcc.exe", "clang.exe"]
  | .posix => ["cc", "gcc", "clang"]

/-- The candidates that no configuration names. -/
def defaultCandidates (host : Host) : List String :=
  distinct [] (compilerVariables.filterMap host.setting? ++ usual host.family)

/-- Whether `c` may stand in the name of a variable. -/
def isVariableChar (c : Char) : Bool :=
  c.isAlphanum || c == '_'

/-- The name of a variable behind a dollar sign, and what follows it: a run of name characters, or
anything between braces. -/
def variableRef? (cs : List Char) : Option (String × List Char) :=
  match cs with
  | '\x7b' :: rest =>
    match rest.dropWhile (· ≠ '\x7d') with
    | _ :: rest' => some (String.ofList (rest.takeWhile (· ≠ '\x7d')), rest')
    | [] => none
  | _ =>
    let name := cs.takeWhile isVariableChar
    if name.isEmpty then none else some (String.ofList name, cs.dropWhile isVariableChar)

/-- The characters with the value of every variable in the place of its reference. A variable that
is not set stays as it is, and a value is not looked through again. The fuel bounds the references;
the length of the text is always enough. -/
def expandChars (lookup : String → Option String) : (fuel : Nat) → List Char → List Char
  | 0, cs => cs
  | _ + 1, [] => []
  | fuel + 1, c :: rest =>
    if c = '$' then
      match variableRef? rest with
      | some (name, rest') =>
        match lookup name with
        | some value => value.toList ++ expandChars lookup fuel rest'
        | none => c :: rest.take (rest.length - rest'.length) ++ expandChars lookup fuel rest'
      | none => c :: expandChars lookup fuel rest
    else c :: expandChars lookup fuel rest

/-- The text with the variables of the environment expanded. -/
def expandVariables (host : Host) (s : String) : String :=
  String.ofList (expandChars host.setting? s.toList.length s.toList)

/-- The home directory that a tilde with a name behind it stands for, if it is known. Without a name
it is that of the user who runs the command, and the environment may name another one. -/
def homeOf? (host : Host) (name : List Char) : Option String :=
  if name.isEmpty then (host.setting? "HOME").or host.users.own
  else Entries.get? host.users.named (String.ofList name)

/-- A home directory with the rest of a path behind it. -/
def joinHome (home : String) (rest : List Char) : String :=
  let joined := (home.toList.reverse.dropWhile (· == '/')).reverse ++ rest
  if joined.isEmpty then "/" else String.ofList joined

/-- The text with a home directory in the place of a tilde in front and the name of a user behind
it. The text stays as it is if no home directory is known, but the name has to be one that can be
looked up. -/
def expandHome (host : Host) (s : String) : Except Path.Fault String :=
  match s.toList with
  | '~' :: rest =>
    let name := rest.takeWhile (· ≠ '/')
    if name.contains '\x00' then .error .zeroCharacter
    else
      match homeOf? host name with
      | some home => .ok (joinHome home (rest.dropWhile (· ≠ '/')))
      | none => .ok s
  | _ => .ok s

/-- A candidate with everything in it expanded. -/
def expand (host : Host) (candidate : String) : Except Path.Fault String :=
  expandHome host (expandVariables host (Text.trim candidate))

/-- Whether a candidate is a path. -/
def isPath (candidate : String) : Bool :=
  candidate.toList.any fun c => c == '/' || c == '\\'

/-- What a candidate with everything in it expanded stands for, if it can be found. -/
def findExpanded (host : Host) (expanded : String) : Except FileTree.Fault (Option String) :=
  if expanded.isEmpty then .ok none
  else if isPath expanded then
    let path := Path.ofString expanded
    (host.pathExists path).map fun found => if found then some path.text else none
  else .ok ((Entries.get? host.commands expanded).filter fun found => !found.isEmpty)

/-- What a candidate stands for, if it can be found. -/
def find (host : Host) (candidate : String) : Except FileTree.Fault (Option String) := do
  let expanded ← (expand host candidate).mapError .unusable
  findExpanded host expanded

/-- What the first candidate that can be found stands for. Those behind it are not looked at. -/
def findFirst (host : Host) : List String → Except FileTree.Fault (Option String)
  | [] => .ok none
  | candidate :: rest => do
    match ← find host candidate with
    | some found => .ok (some found)
    | none => findFirst host rest

/-- The candidates in order, each once. -/
def candidates (host : Host) (compiler : Option String) (further : List String) : List String :=
  distinct [] ((compiler.filter fun name => !name.isEmpty).toList ++ further ++
    defaultCandidates host)

/-- The compiler to launch. -/
def resolve (host : Host) (compiler : Option String) (further : List String) :
    Except Error String :=
  let tried := candidates host compiler further
  match findFirst host tried with
  | .ok (some found) => .ok found
  | .ok none => .error (.toolchain .compile (.noCompiler tried))
  | .error fault => .error (.file fault)

end HeaderBind.Compiler
