import HeaderBind.ExportMode
import HeaderBind.Json.Literal
import HeaderBind.Name

/-!
# `HeaderBind.Declaration`: what a module is to bind

A constant of a header becomes a name with its value; a structure becomes a pair of routines that
encode its members into bytes and decode them again. `Constant.make` and `Struct.make` are the
only checks of names on the way in: what they let through can be written into a probe program and
into a module.
-/

set_option autoImplicit false

namespace HeaderBind

/-- A constant: its name in the header and its name in the module. -/
structure Constant where
  source : String
  exposed : String
  mode : ExportMode
  deriving DecidableEq, Repr

/-- A structure: how the header names it, the name without the word `struct`, its members in the
order of the routines' parameters, and the two routines. A tail takes whatever bytes follow the
fixed part. -/
structure Struct where
  name : String
  base : String
  members : List String
  encoder : String
  decoder : String
  hasTail : Bool
  mode : ExportMode
  deriving DecidableEq, Repr

/-- A declaration of either kind. -/
inductive Declaration where
  | constant (declared : Constant)
  | struct (declared : Struct)
  deriving DecidableEq, Repr

namespace Declaration

/-- What stands for a member where a structure is declared. -/
inductive MemberEntry where
  /-- A member of some kind; a bare name is of the numeric kind. -/
  | named (name kind : String)
  /-- A value that describes no member; how it is shown, or why it cannot be. -/
  | other (shown : Except Json.TextFault String)

/-- The one kind of member: a single integer. -/
def numericKind : String := "numeric"

/-- Why a declaration is refused. A structure is named as it was given, blanks included. -/
inductive Fault where
  | constantName (source : String)
  | exposedName (source exposed : String)
  | structName (name : String)
  | routineName (owner routine : String)
  | sameRoutine (owner routine : String)
  | notAMember (owner shown : String)
  /-- A value that is no member cannot be shown. -/
  | unshown (fault : Json.TextFault)
  | memberKind (owner member kind : String)
  | memberName (owner member : String)
  | repeatedMember (owner member : String)
  | noMember (owner : String)
  deriving DecidableEq, Repr

/-- The wording of a refusal. -/
def Fault.message : Fault → String
  | .constantName source => s!"Invalid constant name '{source}'."
  | .exposedName source exposed =>
    s!"Constant '{source}' cannot be exposed as '{exposed}': not a Python identifier."
  | .structName name => s!"Invalid structure name '{name}'."
  | .routineName owner routine =>
    s!"Structure {owner} routine name '{routine}' is not a Python identifier."
  | .sameRoutine owner routine => s!"Structure {owner} uses '{routine}' for both routines."
  | .notAMember owner shown => s!"Structure {owner} member {shown} is not a member definition."
  | .unshown fault => fault.message .showing
  | .memberKind owner member kind =>
    s!"Structure {owner} member {member} has unsupported kind '{kind}'."
  | .memberName owner member => s!"Structure {owner} has invalid member name '{member}'."
  | .repeatedMember owner member => s!"Structure {owner} declares member {member} twice."
  | .noMember owner => s!"Structure {owner} must declare at least one member."

end Declaration

open Declaration (Fault MemberEntry numericKind)

/-- A name that was given, unless it is missing or empty. -/
def chosenName (given : Option String) (fallback : String) : String :=
  match given with
  | some name => if name.isEmpty then fallback else name
  | none => fallback

/-- A constant of the given name, exposed under that name unless another one is given. -/
def Constant.make (source : String) (exposed : Option String) (mode : ExportMode) :
    Except Fault Constant :=
  let exposed := chosenName exposed source
  if !Name.isName source then .error (.constantName source)
  else if !Name.isBindable exposed then .error (.exposedName source exposed)
  else .ok ⟨source, exposed, mode⟩

namespace Struct

/-- The names of the members, each of them checked against those in front of it. -/
def checkMembers (owner : String) : (seen : List String) → List MemberEntry →
    Except Fault (List String)
  | _, [] => .ok []
  | _, .other (.ok shown) :: _ => .error (.notAMember owner shown)
  | _, .other (.error fault) :: _ => .error (.unshown fault)
  | seen, .named name kind :: rest =>
    if kind ≠ numericKind then .error (.memberKind owner name kind)
    else if !Name.isName name then .error (.memberName owner name)
    else if seen.contains name then .error (.repeatedMember owner name)
    else (checkMembers owner (seen ++ [name]) rest).map (name :: ·)

/-- The first of the two routine names that the module cannot bind. -/
def badRoutine? (encoder decoder : String) : Option String :=
  [encoder, decoder].find? fun routine => !Name.isBindable routine

/-- A structure of the given name. The routines are named after it unless other names are
given. -/
def make (name : String) (members : List MemberEntry) (mode : ExportMode)
    (encoder decoder : Option String) (hasTail : Bool) : Except Fault Struct :=
  let base := Name.structBase name
  let encoder := chosenName encoder s!"encode_{base}"
  let decoder := chosenName decoder s!"decode_{base}"
  if !Name.isName base then .error (.structName name)
  else
    match badRoutine? encoder decoder with
    | some routine => .error (.routineName name routine)
    | none =>
      if encoder = decoder then .error (.sameRoutine name encoder)
      else
        match checkMembers name [] members with
        | .error fault => .error fault
        | .ok [] => .error (.noMember name)
        | .ok members =>
          .ok ⟨Text.trim name, base, members, encoder, decoder, hasTail, mode⟩

/-- What the encoding routine takes: a value for each member, and the tail. -/
def parameters (s : Struct) : List String :=
  if s.hasTail then s.members ++ ["tail"] else s.members

/-- The name that the module binds to the compiled format of the structure. -/
def formatName (base : String) : String :=
  s!"_struct_{base}"

end Struct

namespace Declaration

/-- What identifies the declaration in the output of a probe. -/
def key : Declaration → String
  | .constant c => c.source
  | .struct s => s.base

/-- The names that the declaration offers for export. -/
def exportedNames : Declaration → List String
  | .constant c => [c.exposed]
  | .struct s => [s.encoder, s.decoder]

/-- The name that the module binds for the declaration without offering it. -/
def internalName? : Declaration → Option String
  | .constant _ => none
  | .struct s => some (Struct.formatName s.base)

/-- Every name that the module binds for the declaration. -/
def boundNames (declaration : Declaration) : List String :=
  declaration.exportedNames ++ declaration.internalName?.toList

/-- The mode that the declaration was made under. -/
def mode : Declaration → ExportMode
  | .constant c => c.mode
  | .struct s => s.mode

end Declaration

end HeaderBind
