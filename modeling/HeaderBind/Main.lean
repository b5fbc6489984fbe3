import HeaderBind.CommandLine.Run

/-!
# `HeaderBind.Main`: the program

The layer between a command, which is a function on hosts, and the machine. It describes the
machine as a host, applies the command, and carries out on the machine what became of the host:
files that are new or changed are written, and what was printed is printed.

A command sees the files below the working directory and the programs on the search path. The
program launches no process itself: the results of the processes that a command would launch are
read from standard input, an array of objects with the keys `status`, `output` and `diagnostics`,
or `failure` for a process that could not be started. Nothing is read for a command that launches
nothing.
-/

set_option autoImplicit false

namespace HeaderBind.Main

/-- The place that an absolute path spells. -/
def placeOf (path : String) : Location :=
  (Path.ofString path).parts

/-- The spelling of a place. -/
def spell (place : Location) : String :=
  (⟨.root, place⟩ : Path).text

/-- The tree with a directory at a place and directories in front of it. -/
def withDirectory (tree : FileTree) (place : Location) : FileTree :=
  match FileTree.makeDirectories [] ⟨.root, place⟩ tree with
  | .ok _ next => next
  | .error _ next => next

/-- The result of a process that a document value describes. -/
def launchOf (answer : Json) : Launch :=
  let text := fun key => ((answer.field? key).map Json.plainText).getD ""
  match answer.field? "failure", answer.field? "status" with
  | some reason, _ => .failed reason.plainText
  | none, some (.integer status) => .finished status (text "output") (text "diagnostics")
  | none, _ => .finished 0 (text "output") (text "diagnostics")

/-- The results of processes that a text lists; none if it is no array. -/
def launchesOf (text : String) : List Launch :=
  match Json.parse text with
  | .ok (.array answers) => answers.map launchOf
  | _ => []

/-- What lies below the working directory. -/
def filesBelow : IO (List (Location × Node)) := do
  let here ← IO.currentDir
  let paths ← here.walkDir
  paths.toList.mapM fun path => do
    let place := placeOf path.toString
    if ← path.isDir then pure (place, Node.directory)
    else pure (place, Node.file (← IO.FS.readBinFile path))

/-- The programs in one directory of the search path. -/
def commandsIn (directory : String) : IO (Entries String) := do
  let folder : IO.FS.DirEntry := { root := directory, fileName := "" }
  if ← folder.path.isDir then
    let entries ← folder.path.readDir
    pure (entries.toList.map fun entry => (entry.fileName, entry.path.toString))
  else pure []

/-- The programs on the search path, those of the first directory in front. -/
def commandsFound : IO (Entries String) := do
  let directories := ((← IO.getEnv "PATH").getD "").toList.splitOn ':'
  let found ← (directories.filter (· ≠ [])).mapM fun cs => commandsIn (String.ofList cs)
  pure found.flatten

/-- The directory for temporary files. -/
def temporaryDirectory : Location :=
  ["tmp"]

/-- The variables of the environment that a command may look at. -/
def variablesSeen : List String :=
  "HOME" :: "COLUMNS" :: Compiler.compilerVariables

/-- The variables that are set. -/
def environmentFound : IO (Entries String) := do
  let values ← variablesSeen.mapM fun name => do
    pure ((← IO.getEnv name).map fun value => (name, value))
  pure (values.filterMap id)

/-- The machine as a command sees it before any process is launched. -/
def describeMachine : IO Host := do
  let here := placeOf (← IO.currentDir).toString
  let skeleton := withDirectory (withDirectory ⟨[]⟩ here) temporaryDirectory
  let files ← filesBelow
  let commands ← commandsFound
  let programs := commands.map fun (_, path) => (placeOf path, Node.file ByteArray.empty)
  let parents := (programs.map fun (place, _) => place.dropLast).eraseDups
  let tree := parents.foldl withDirectory skeleton
  pure
    { tree := ⟨tree.entries ++ files ++ programs⟩
      workingDirectory := here
      scratchRoot := temporaryDirectory
      environment := ← environmentFound
      commands := commands
      family := .posix
      answers := []
      launched := []
      compiled := []
      printed := ""
      complaints := "" }

/-- Puts what lies at a place onto the disk. -/
def carryOut (place : Location) : Node → IO Unit
  | .directory => IO.FS.createDirAll (spell place)
  | .file content => do
    IO.FS.createDirAll (spell place.dropLast)
    IO.FS.writeBinFile (spell place) content

/-- The host that a command leaves behind, and the status that the program ends with. -/
def outcome (words : List String) (host : Host) : Host × UInt32 :=
  match CommandLine.run words host with
  | .ok (.status code) next => (next, code.toUInt32)
  | .ok (.stopped code) next => (next, code.toUInt32)
  | .error error next =>
    ({ next with complaints := next.complaints ++ error.message ++ "\n" }, 1)

/-- Runs the command that the words ask for on the machine. -/
def runOnMachine (words : List String) : IO UInt32 := do
  let host ← describeMachine
  -- Whether anything is launched does not depend on the answers, so the first run decides it.
  let (first, _) := outcome words host
  let answers ←
    if first.launched.isEmpty then pure []
    else do pure (launchesOf (← (← IO.getStdin).readToEnd))
  let (final, status) := outcome words { host with answers := answers }
  for (place, node) in final.tree.newSince host.tree do
    carryOut place node
  IO.print final.printed
  IO.eprint final.complaints
  pure status

end HeaderBind.Main

/-- The program. -/
def main (words : List String) : IO UInt32 :=
  HeaderBind.Main.runOnMachine words
