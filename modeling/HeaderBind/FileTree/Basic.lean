import HeaderBind.Interpreter
import HeaderBind.Path
import HeaderBind.Text.Quoted

/-!
# `HeaderBind.FileTree.Basic`: directories and files

A file tree lists what lies at each place, a place being the components that lead to it from the
root. The root itself is a directory and is not listed. The operations go where a path leads them,
component by component, as the operating system does: a component that leads upwards needs a
directory in front of it, nothing lies below a file, and neither a name nor a path may be too long.

There are no symbolic links in a file tree: every place is what it is, and two places are apart.
What links change about paths is said by `HeaderBind.Path.Disk`.
-/

set_option autoImplicit false

namespace HeaderBind

/-- A place in a file tree: the components that lead to it from the root. -/
abbrev Location := List String

/-- What lies at a place. -/
inductive Node where
  | file (content : ByteArray)
  | directory

/-- Two files are equal if their bytes are. -/
instance : DecidableEq Node
  | .directory, .directory => isTrue rfl
  | .directory, .file _ => isFalse nofun
  | .file _, .directory => isFalse nofun
  | .file content, .file other =>
    -- The instance is named because there is a second one among the extensions of core.
    match ByteArray.instDecidableEq content other with
    | isTrue same => isTrue (congrArg Node.file same)
    | isFalse differ => isFalse fun same => differ (Node.file.inj same)

/-- Directories and files, each at its place. -/
structure FileTree where
  entries : List (Location × Node)
  deriving DecidableEq

namespace FileTree

/-- Why an operation on files fails, with the path as it was given. -/
inductive Fault where
  /-- The path can lead nowhere. -/
  | unusable (fault : Path.Fault)
  | missing (path : String)
  | alreadyThere (path : String)
  | notADirectory (path : String)
  | isADirectory (path : String)
  | tooLong (path : String)
  /-- More directories are missing than there is room for. -/
  | tooNested
  deriving DecidableEq, Repr

/-- The wording of a failure. -/
def Fault.message : Fault → String
  | .unusable fault => fault.message
  | .missing path => s!"[Errno 2] No such file or directory: {Text.quoted path}"
  | .alreadyThere path => s!"[Errno 17] File exists: {Text.quoted path}"
  | .notADirectory path => s!"[Errno 20] Not a directory: {Text.quoted path}"
  | .isADirectory path => s!"[Errno 21] Is a directory: {Text.quoted path}"
  | .tooLong path => s!"[Errno 36] File name too long: {Text.quoted path}"
  | .tooNested => Descent.making.message

/-- What lies at a place. -/
def node? (tree : FileTree) (place : Location) : Option Node :=
  if place = [] then some .directory
  else (tree.entries.find? fun entry => entry.1 == place).map Prod.snd

/-- The tree with a node at a place, whatever was there before. -/
def put (tree : FileTree) (place : Location) (node : Node) : FileTree :=
  if tree.entries.any fun entry => entry.1 == place then
    ⟨tree.entries.map fun entry => if entry.1 = place then (place, node) else entry⟩
  else ⟨tree.entries ++ [(place, node)]⟩

/-- The tree without a place and everything below it. -/
def remove (tree : FileTree) (place : Location) : FileTree :=
  ⟨tree.entries.filter fun entry => !place.isPrefixOf entry.1⟩

/-- The names in a directory: each name that leads from it to something, near or far. -/
def names (tree : FileTree) (place : Location) : List String :=
  (tree.entries.filterMap fun entry =>
    if place.isPrefixOf entry.1 then entry.1[place.length]? else none).eraseDups

/-- Why a path leads to nothing. -/
inductive Obstacle where
  /-- The path can lead nowhere. -/
  | unusable (fault : Path.Fault)
  /-- Nothing lies at a place that it leads to or through. -/
  | missing
  /-- It leads through a file. -/
  | blocked
  /-- The path has too many bytes, or a component to be looked up has. -/
  | tooLong
  deriving DecidableEq, Repr

/-- The refusal of an operation that meets an obstacle. -/
def Obstacle.fault (path : Path) : Obstacle → Fault
  | unusable fault => .unusable fault
  | missing => .missing path.text
  | blocked => .notADirectory path.text
  | tooLong => .tooLong path.text

/-- The most bytes of a name. -/
def nameLimit : Nat := 255

/-- The most bytes of a path. -/
def pathLimit : Nat := 4095

/-- Where components lead from a place: to what lies there. -/
def walk (tree : FileTree) : (place : Location) → (parts : List String) →
    Except Obstacle (Location × Node)
  | place, [] =>
    match tree.node? place with
    | some node => .ok (place, node)
    | none => .error .missing
  | place, part :: parts =>
    match tree.node? place with
    | some .directory =>
      if nameLimit < part.utf8ByteSize then .error .tooLong
      else walk tree (Path.step place part) parts
    | some (.file _) => .error .blocked
    | none => .error .missing

/-- Where a path leads: to what lies there. -/
def locate (tree : FileTree) (workingDirectory : Location) (path : Path) :
    Except Obstacle (Location × Node) :=
  if !path.isUsable then .error (.unusable .zeroCharacter)
  else if pathLimit < path.text.utf8ByteSize then .error .tooLong
  else tree.walk (path.startOf workingDirectory) path.parts

/-- Whether something lies where the path leads. Too long a path is refused. -/
def pathExists (tree : FileTree) (workingDirectory : Location) (path : Path) :
    Except Fault Bool :=
  match tree.locate workingDirectory path with
  | .ok _ => .ok true
  | .error .tooLong => .error (Obstacle.tooLong.fault path)
  | .error _ => .ok false

/-- The content of the file where the path leads. -/
def read (tree : FileTree) (workingDirectory : Location) (path : Path) :
    Except Fault ByteArray :=
  match tree.locate workingDirectory path with
  | .ok (_, .file content) => .ok content
  | .ok (_, .directory) => .error (.isADirectory path.text)
  | .error obstacle => .error (obstacle.fault path)

end FileTree

end HeaderBind
