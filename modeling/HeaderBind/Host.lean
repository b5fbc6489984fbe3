import HeaderBind.Error
import HeaderBind.FileTree.Write
import HeaderBind.Text.Lines

/-!
# `HeaderBind.Host`: the machine that a command runs on

Everything outside the program that a command can see or change is one value: the files, the
variables of the environment, the known users, the commands that a search finds, the answers of the
processes to be launched, and what was launched and printed so far. A command is a function on hosts
(`Action`), so a failed command leaves a host behind as well.

Three things about machines are assumed. Nobody is denied anything: files have no permissions, and
what is printed arrives. A scratch directory can always be made. And a machine of the other family
differs only in the names of its compilers and of what they make (`Family`): its paths are written
and looked up in the same way.
-/

set_option autoImplicit false

namespace HeaderBind

/-- The family of the operating system. It decides which compilers are tried unasked and how
object files and executables are named, and nothing else. -/
inductive Family where
  | posix
  | windows
  deriving DecidableEq, Repr

/-- What comes of launching a process. -/
inductive Launch where
  | finished (status : Int) (output diagnostics : String)
  /-- The process could not be started. -/
  | failed (reason : String)
  /-- The process ended, with whatever status, and what it printed is no text. -/
  | garbled (fault : Utf8.Fault)
  deriving DecidableEq, Repr

/-- The answer of a process that succeeds and prints nothing. -/
def Launch.silent : Launch :=
  .finished 0 "" ""

/-- The users of a machine, as far as their home directories are known. -/
structure Users where
  /-- The home directory of the user who runs the command. -/
  own : Option String
  /-- The home directories of users by name. -/
  named : Entries String
  deriving DecidableEq, Repr

/-- The machine that a command runs on. -/
structure Host where
  tree : FileTree
  workingDirectory : Location
  /-- The directory that scratch directories are made in. -/
  scratchRoot : Location
  environment : Entries String
  users : Users := ⟨none, []⟩
  /-- What a search for a command finds. -/
  commands : Entries String
  family : Family
  /-- The answers of the next processes; any further process succeeds silently. -/
  answers : List Launch
  /-- The commands launched so far. -/
  launched : List (List String)
  /-- The text of every source file that a compiler was launched on. -/
  compiled : List String
  /-- What was printed. -/
  printed : String
  /-- What was printed about errors. -/
  complaints : String

/-- A step of a command. Its effects on the host stay when it fails. -/
abbrev Action := EStateM Error Host

namespace Action

/-- The result of a computation without effects. -/
def ofExcept {α ε : Type} (wrap : ε → Error) : Except ε α → Action α
  | .ok value => pure value
  | .error fault => throw (wrap fault)

/-- A change of the files. -/
def change {α : Type} (act : FileTree.Change α) : Action α := fun host =>
  match act host.tree with
  | .ok value tree => .ok value { host with tree := tree }
  | .error fault tree => .error (.file fault) { host with tree := tree }

end Action

namespace Host

/-- The value of a variable of the environment. -/
def setting? (host : Host) (name : String) : Option String :=
  Entries.get? host.environment name

/-- Whether something lies where a path leads. Too long a path is refused. -/
def pathExists (host : Host) (path : Path) : Except FileTree.Fault Bool :=
  host.tree.pathExists host.workingDirectory path

/-- The bytes of the file where a path leads. -/
def readBytes (host : Host) (path : Path) : Except FileTree.Fault ByteArray :=
  host.tree.read host.workingDirectory path

/-- The absolute path that a text spells on the host. -/
def resolve (host : Host) (text : String) : Except Path.Fault Path :=
  (Path.ofString text).resolve host.workingDirectory

end Host

/-- The text that the bytes of a file encode, every line ended by a line feed. -/
def decodeText (content : ByteArray) : Except Utf8.Fault String :=
  (Utf8.decode content).map fun s => String.ofList (Text.unifyNewlines s.toList)

namespace Action

/-- Prints a text. -/
def print (text : String) : Action Unit :=
  modify fun host => { host with printed := host.printed ++ text }

/-- Prints a line. -/
def printLine (line : String) : Action Unit :=
  print (line ++ "\n")

/-- Prints a text about an error. -/
def complain (text : String) : Action Unit :=
  modify fun host => { host with complaints := host.complaints ++ text }

/-- The absolute path that a text spells. -/
def resolve (text : String) : Action Path := do
  ofExcept .ofPath ((← get).resolve text)

/-- Reads a file as text. A refusal by the file tree becomes the error that `wrap` makes of it,
unless the path can lead nowhere. -/
def readText (path : Path) (wrap : FileTree.Fault → Error) : Action String := do
  match (← get).readBytes path with
  | .ok content => ofExcept .encoding (decodeText content)
  | .error (.unusable fault) => throw (.ofPath fault)
  | .error fault => throw (wrap fault)

/-- Writes a file and makes the directories that lead to it. -/
def writeText [Interpreter] (path : Path) (text : String) : Action Unit := do
  let host ← get
  change (FileTree.write host.workingDirectory path (Utf8.encode text))

/-- Writes a text given by its code points, and gives the string that was written. The file is
opened before the text is encoded, so a text that cannot be encoded leaves an empty file behind. -/
def writeCode [Interpreter] (path : Path) (text : CodeText) : Action String := do
  match text.asString with
  | .ok s =>
    writeText path s
    pure s
  | .error fault =>
    writeText path ""
    throw (.unencodable fault)

end Action

end HeaderBind
