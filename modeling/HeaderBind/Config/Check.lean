import HeaderBind.Config.Shape
import HeaderBind.ExportMode
import HeaderBind.Schema.Relevance
import HeaderBind.Text.Blank

/-!
# `HeaderBind.Config.Check`: is a document a configuration?

A document passes two checks. The first walks through the targets in the order of the document and
names the first thing that is wrong in words of the domain; it tolerates a null wherever a setting
is optional. The second holds the document against `Config.shape`, which is stricter about names
and unknown keys and does not tolerate nulls.
-/

set_option autoImplicit false

namespace HeaderBind.Config

/-- What a value has to be. -/
inductive Requirement where
  | object
  | objectIfGiven
  | nonEmptyText
  | nonEmptyTextIfGiven
  | flagIfGiven
  | nonEmptyArray
  | oneKind
  | someMember
  deriving DecidableEq, Repr

/-- The kinds of declarations, by the key that tells them apart. -/
def declarationKinds : List String :=
  ["include", "export", "constant", "structure"]

/-- The wording of a requirement. -/
def Requirement.message : Requirement → String
  | object => "must be an object"
  | objectIfGiven => "must be an object when specified"
  | nonEmptyText => "must be a non-empty string"
  | nonEmptyTextIfGiven => "must be a non-empty string when specified"
  | flagIfGiven => "must be boolean when specified"
  | nonEmptyArray => "must be a non-empty array"
  | oneKind => "must contain exactly one of: " ++ ", ".intercalate declarationKinds
  | someMember => "must list at least one member"

/-- Why a list of texts is refused: it is no array, or an item is no text or the empty one. -/
inductive TextListFault where
  | notAnArray (place : String)
  | item (place : String) (index : Nat)
  deriving DecidableEq, Repr

/-- The wording of a refusal. -/
def TextListFault.message : TextListFault → String
  | .notAnArray place => s!"Target field '{place}' must be an array when specified."
  | .item place index => s!"Target field '{place}[{index}]' must be a non-empty string."

/-- Why a document is no configuration. -/
inductive Fault where
  | rootNotAnObject
  | noTargets
  | emptyTargetName
  | unmet (place : String) (requirement : Requirement)
  | textList (fault : TextListFault)
  | exportMode (fault : ExportMode.Fault)
  /-- The document violates the shape of a kind of document. -/
  | shape (kind location message : String)
  /-- There is no shape for that kind of document. -/
  | unknownKind (kind : String)
  /-- The document violates the shape, and a value that the message about it shows cannot be
  shown. -/
  | unshown (fault : Json.TextFault)
  deriving DecidableEq, Repr

/-- The wording of a refusal. -/
def Fault.message : Fault → String
  | .rootNotAnObject => "config root must be an object"
  | .noTargets => "config must define non-empty 'targets' object"
  | .emptyTargetName => "config target names must be non-empty strings"
  | .unmet place requirement => s!"{place} {requirement.message}"
  | .textList fault => fault.message
  | .exportMode fault => fault.message
  | .shape kind location message =>
    s!"{kind} failed JSON schema validation at {location}: {message}"
  | .unknownKind kind => s!"Unknown schema kind: {kind}"
  | .unshown fault => fault.message .showing

/-- The texts of an array, numbered from `index`; the first item that is no text, or the empty
one, is refused. -/
def textItems (place : String) : (index : Nat) → List Json → Except TextListFault (List String)
  | _, [] => .ok []
  | index, item :: items =>
    match item.nonEmptyText? with
    | none => .error (.item place index)
    | some s => (textItems place (index + 1) items).map (s :: ·)

/-- A list of texts that may be missing. -/
def textList (place : String) : Option Json → Except TextListFault (List String)
  | none => .ok []
  | some .null => .ok []
  | some (.array items) => textItems place 0 items
  | some _ => .error (.notAnArray place)

/-- Demands something of the value at a place. -/
def require (holds : Bool) (place : String) (requirement : Requirement) : Except Fault Unit :=
  if holds then .ok () else .error (.unmet place requirement)

/-- Whether a value is an object. -/
def isObject : Json → Bool
  | .object _ => true
  | _ => false

/-- Whether an optional value is missing or satisfies a test. -/
def absentOr (test : Json → Bool) (value : Option Json) : Bool :=
  value.all test

/-- Whether a value is a text that is not empty. -/
def isNonEmptyText (value : Json) : Bool :=
  value.nonEmptyText?.isSome

/-- Whether a value is true or false. -/
def isFlag : Json → Bool
  | .bool _ => true
  | _ => false

/-- Checks the fields that belong to a kind of declaration; `s` is the text that the kind's own
key gives. -/
def checkKindFields (decl : Json) (place kind s : String) : Except Fault Unit := do
  if kind = "export" then
    discard <| (ExportMode.ofName s).mapError .exportMode
  else if kind = "include" then
    require (absentOr isFlag (decl.given? "local")) s!"{place}.local" .flagIfGiven
  else if kind = "constant" then
    require (absentOr isNonEmptyText (decl.given? "name")) s!"{place}.name" .nonEmptyTextIfGiven
  else
    let members ← (textList s!"{place}.members" (decl.field? "members")).mapError .textList
    require (!members.isEmpty) s!"{place}.members" .someMember
    require (absentOr isNonEmptyText (decl.given? "encode_func")) s!"{place}.encode_func"
      .nonEmptyTextIfGiven
    require (absentOr isNonEmptyText (decl.given? "decode_func")) s!"{place}.decode_func"
      .nonEmptyTextIfGiven
    require (absentOr isFlag (decl.given? "with_tail")) s!"{place}.with_tail" .flagIfGiven

/-- Checks a declaration at a place. -/
def checkDeclaration (decl : Json) (place : String) : Except Fault Unit := do
  require (isObject decl) place .object
  match declarationKinds.filter fun kind => (decl.field? kind).isSome with
  | [kind] =>
    match decl.field? kind with
    | some (.string s) =>
      require (!Text.isBlankText s) s!"{place}.{kind}" .nonEmptyText
      checkKindFields decl place kind s
    | _ => .error (.unmet s!"{place}.{kind}" .nonEmptyText)
  | _ => .error (.unmet place .oneKind)

/-- Checks the declarations of a target, numbered from `index`. -/
def checkDeclarations (place : String) : (index : Nat) → List Json → Except Fault Unit
  | _, [] => .ok ()
  | index, decl :: decls => do
    checkDeclaration decl s!"{place}.declarations[{index}]"
    checkDeclarations place (index + 1) decls

/-- The settings of a toolchain that are lists of texts. -/
def toolchainLists : List String :=
  ["compiler_candidates", "cflags", "ldflags", "include_dirs"]

/-- Checks the settings of a toolchain. -/
def checkToolchain (place : String) : Option Json → Except Fault Unit
  | none => .ok ()
  | some toolchain => do
    require (isObject toolchain) place .objectIfGiven
    require (absentOr isNonEmptyText (toolchain.given? "compiler")) s!"{place}.compiler"
      .nonEmptyTextIfGiven
    toolchainLists.forM fun key => do
      discard <| (textList s!"{place}.{key}" (toolchain.field? key)).mapError .textList

/-- Checks a target. -/
def checkTarget (name : String) (target : Json) : Except Fault Unit := do
  let place := s!"config.targets.{name}"
  if name.isEmpty then .error .emptyTargetName
  require (isObject target) place .object
  require ((target.field? "module").any isNonEmptyText) s!"{place}.module" .nonEmptyText
  require (absentOr isNonEmptyText (target.given? "output_path")) s!"{place}.output_path"
    .nonEmptyTextIfGiven
  checkToolchain s!"{place}.toolchain" (target.given? "toolchain")
  match target.field? "declarations" with
  | some (.array (decl :: decls)) => checkDeclarations place 0 (decl :: decls)
  | _ => .error (.unmet s!"{place}.declarations" .nonEmptyArray)

/-- Checks the targets in the order of the document. -/
def checkTargets : List (String × Json) → Except Fault Unit
  | [] => .ok ()
  | (name, target) :: targets => do
    checkTarget name target
    checkTargets targets

section

variable [Interpreter]

/-- Holds a document against the shape of its kind. The messages about all violations are made
before the one to report is chosen. -/
def checkShape (kind : String) (document : Json) : Except Fault Unit :=
  if kind ≠ "config" then .error (.unknownKind kind)
  else
    match Schema.Violation.faults? [] (shape.check document) with
    | some fault => .error (.unshown fault)
    | none =>
      match Schema.Violation.best? (shape.check document) with
      | none => .ok ()
      | some violation => .error (.shape kind violation.location violation.message)

/-- Checks a whole document. -/
def check (document : Json) : Except Fault Unit := do
  if !isObject document then .error .rootNotAnObject
  match document.field? "targets" with
  | some (.object (target :: targets)) => checkTargets (target :: targets)
  | _ => .error .noTargets
  checkShape "config" document

end

end HeaderBind.Config
