import HeaderBind.Text.Quoted

/-!
# `HeaderBind.Path`: paths of files

A path is kept in a normal form: an anchor and the components behind it, without empty components
and without those that name their own directory. A component that leads upwards stays, since it
means what the file tree makes of it. Resolving a path removes it, and makes the path absolute. On
the way symbolic links are followed, as far as a disk has any (`Disk`, `resolveOn`); a
`HeaderBind.FileTree` has none (`resolve`).

A component with a zero character in it has a spelling but can name nothing, so a path with one is
refused wherever the file tree is asked about it.
-/

set_option autoImplicit false

namespace HeaderBind

/-- Where a path starts. -/
inductive Anchor where
  /-- At the working directory. -/
  | relative
  /-- At the root. -/
  | root
  /-- At the root, written with two slashes, which is a spelling of its own. -/
  | doubleRoot
  deriving DecidableEq, Repr

/-- The slashes of an anchor. -/
def Anchor.text : Anchor → String
  | relative => ""
  | root => "/"
  | doubleRoot => "//"

/-- A path in normal form. -/
structure Path where
  anchor : Anchor
  parts : List String
  deriving DecidableEq, Repr

namespace Path

/-- The anchor that a number of slashes in front makes. -/
def anchorOfSlashes : Nat → Anchor
  | 0 => .relative
  | 2 => .doubleRoot
  | _ => .root

/-- Whether a component says where to go. -/
def isStep (part : List Char) : Bool :=
  !part.isEmpty && part != ['.']

/-- The path that a text spells. -/
def ofString (s : String) : Path :=
  let cs := s.toList
  { anchor := anchorOfSlashes (cs.takeWhile (· == '/')).length
    parts := ((cs.splitOn '/').filter isStep).map String.ofList }

/-- The spelling of a path; the working directory itself is a point. -/
def text (path : Path) : String :=
  if path.anchor = .relative ∧ path.parts = [] then "."
  else path.anchor.text ++ "/".intercalate path.parts

/-- Whether the path does not depend on the working directory. -/
def isAbsolute (path : Path) : Bool :=
  path.anchor != .relative

/-- The path seen from a directory: an absolute one is not affected. -/
def under (directory path : Path) : Path :=
  if path.isAbsolute then path else { directory with parts := directory.parts ++ path.parts }

/-- The last component; empty if there is none. -/
def name (path : Path) : String :=
  path.parts.getLast?.getD ""

/-- The path of the directory that the last component is looked up in. -/
def parent (path : Path) : Path :=
  { path with parts := path.parts.dropLast }

/-- Why a path is refused when it is to be followed. -/
inductive Fault where
  /-- A component holds a zero character. -/
  | zeroCharacter
  /-- Links lead round in a circle; the path where this was found. -/
  | linkLoop (path : String)
  deriving DecidableEq, Repr

/-- The wording of a refusal. -/
def Fault.message : Fault → String
  | zeroCharacter => "embedded null byte"
  | linkLoop path => s!"Symlink loop from {Text.quoted path}"

/-- Whether every component can be a name. -/
def isUsable (path : Path) : Bool :=
  path.parts.all fun part => !part.toList.contains '\x00'

/-- The place that a path starts from. -/
def startOf (path : Path) (workingDirectory : List String) : List String :=
  if path.isAbsolute then [] else workingDirectory

/-- The place that a component leads to from a place given by its components. Nothing lies above
the root. -/
def step (place : List String) (part : String) : List String :=
  if part = ".." then place.dropLast else place ++ [part]

/-! ### Symbolic links -/

/-- What a system knows of symbolic links, places being given by the components that lead to them
from the root. -/
structure Disk where
  /-- The links, each at its place, with the path that it stands for. -/
  links : List (List String × Path)
  /-- Whether the system gives up at a place, because links lead round in a circle there. -/
  loops : (place : List String) → Bool

/-- A disk without links. -/
def Disk.plain : Disk where
  links := []
  loops := fun _ => false

/-- Where components lead, one after the other, when every place that is reached is entered. Where
an entry fails, the components that are left are taken as they stand. -/
def advance (enter : List String → Except (List String) (List String)) :
    (place : List String) → (parts : List String) → Except (List String) (List String)
  | place, [] => .ok place
  | place, part :: parts =>
    if part = ".." then advance enter place.dropLast parts
    else
      match enter (place ++ [part]) with
      | .ok next => advance enter next parts
      | .error stuck => .error (parts.foldl step stuck)

/-- The place that a place stands for: a link stands for what its path leads to, seen from the
directory that the link is in. The links that are being followed are given; whoever comes to one of
them again goes round in a circle and stops there. Each link is followed at most once at a time, so
the number of links bounds how far this goes. -/
def enter (links : List (List String × Path)) :
    (fuel : Nat) → (followed : List (List String)) → (place : List String) →
      Except (List String) (List String)
  | fuel, followed, place =>
    match links.lookup place with
    | none => .ok place
    | some target =>
      if followed.contains place then .error place
      else
        match fuel with
        | 0 => .error place
        | fuel + 1 =>
          advance (enter links fuel (place :: followed))
            (if target.isAbsolute then [] else place.dropLast) target.parts

/-- Where components lead from a place on a disk. -/
def Disk.follow (disk : Disk) (place parts : List String) : List String :=
  match advance (enter disk.links disk.links.length []) place parts with
  | .ok reached => reached
  | .error stuck => stuck

/-- The absolute path that a path stands for on a disk, without links and without components that
lead upwards, seen from a working directory that is given by its components from the root. -/
def resolveOn (disk : Disk) (path : Path) (workingDirectory : List String) : Except Fault Path :=
  let resolved : Path := ⟨.root, disk.follow (path.startOf workingDirectory) path.parts⟩
  if !path.isUsable then .error .zeroCharacter
  else if disk.loops resolved.parts then .error (.linkLoop resolved.text)
  else .ok resolved

/-- The absolute path that a path stands for where there are no links. -/
def resolve (path : Path) (workingDirectory : List String) : Except Fault Path :=
  resolveOn .plain path workingDirectory

end Path

end HeaderBind
