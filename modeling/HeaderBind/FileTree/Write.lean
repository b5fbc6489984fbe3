import HeaderBind.FileTree.Basic

/-!
# `HeaderBind.FileTree.Write`: making directories and writing files

A file is written together with the directories that lead to it. The two steps can fail one after
the other, so an operation answers with the tree it leaves behind in either case: directories that
were made before a refusal stay. The call that makes a directory calls itself for the one in front
if that is missing, so the first directory that can be made is reached only if there is room for so
many calls. No directory is made before that.
-/

set_option autoImplicit false

namespace HeaderBind.FileTree

/-- An operation that may change the tree and may be refused, keeping the tree either way. -/
abbrev Change := EStateM Fault FileTree

/-- What an attempt to make one directory comes to. -/
inductive Attempt where
  /-- The directory is there now. -/
  | done (tree : FileTree)
  /-- Something in the way cannot be a directory. -/
  | refused (fault : Fault)
  /-- A directory in front of it is missing. -/
  | tooDeep

/-- Tries to make the directory at a path, all directories in front of it being there. -/
def attempt (tree : FileTree) (workingDirectory : Location) (path : Path) : Attempt :=
  match tree.locate workingDirectory path with
  | .ok (_, .directory) => .done tree
  | .ok (_, .file _) => .refused (.alreadyThere path.text)
  | .error .missing =>
    match tree.locate workingDirectory path.parent, path.parts.getLast? with
    | .ok (place, .directory), some last => .done (tree.put (place ++ [last]) .directory)
    | _, _ => .tooDeep
  | .error obstacle => .refused (obstacle.fault path)

/-- Makes the directory at a path whose components are given last first. Those in front of it are
made only when the first attempt misses one, by a further call that there has to be room for. -/
def makeChain (workingDirectory : Location) (anchor : Anchor) :
    List String → (room : Nat) → Change Unit
  | [], _ => pure ()
  | last :: before, room => do
    let path : Path := ⟨anchor, (last :: before).reverse⟩
    match (← get).attempt workingDirectory path with
    | .done tree => set tree
    | .refused fault => throw fault
    | .tooDeep =>
      if room = 0 then throw .tooNested
      else
        makeChain workingDirectory anchor before (room - 1)
        match (← get).attempt workingDirectory path with
        | .done tree => set tree
        | .refused fault => throw fault
        | .tooDeep => throw (.missing path.text)

/-- Makes the directory at a path and those that lead to it. -/
def makeDirectories [Interpreter] (workingDirectory : Location) (path : Path) : Change Unit :=
  makeChain workingDirectory path.anchor path.parts.reverse Interpreter.makeRoom

/-- Writes the file at a path, all directories in front of it being there. -/
def overwrite (workingDirectory : Location) (path : Path) (content : ByteArray) : Change Unit := do
  let tree ← get
  match tree.locate workingDirectory path with
  | .ok (place, .file _) => set (tree.put place (.file content))
  | .ok (_, .directory) => throw (.isADirectory path.text)
  | .error .missing =>
    match tree.locate workingDirectory path.parent, path.parts.getLast? with
    | .ok (place, .directory), some last => set (tree.put (place ++ [last]) (.file content))
    | _, _ => throw (.missing path.text)
  | .error obstacle => throw (obstacle.fault path)

/-- Writes the file at a path and makes the directories that lead to it. -/
def write [Interpreter] (workingDirectory : Location) (path : Path) (content : ByteArray) :
    Change Unit := do
  makeDirectories workingDirectory path.parent
  overwrite workingDirectory path content

/-- What the tree shows from outside: every file, and every directory with nothing in it. -/
def listing (tree : FileTree) : List (Location × Node) :=
  tree.entries.filter fun entry =>
    match entry.2 with
    | .file _ => true
    | .directory => (tree.names entry.1).isEmpty

/-- What the tree shows and another one does not. -/
def newSince (tree before : FileTree) : List (Location × Node) :=
  tree.listing.filter fun entry => !before.listing.contains entry

end HeaderBind.FileTree
