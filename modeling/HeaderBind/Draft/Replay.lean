import HeaderBind.Config.Target
import HeaderBind.Error

/-!
# `HeaderBind.Draft.Replay`: the declarations of a target

A target of a configuration is replayed into a draft, declaration by declaration. A declaration
that was never checked is read leniently: a value where a text is wanted counts as its literal,
and a setting that is void counts as not given.
-/

set_option autoImplicit false

namespace HeaderBind.Draft

open HeaderBind.Declaration (MemberEntry numericKind)

/-- The text that a key of a declaration gives, if the declaration has the key. -/
def textField? (decl : Json) (key : String) : Option String :=
  (decl.field? key).map Json.plainText

/-- The name that a key of a declaration gives, unless its value is void. -/
def chosenField? (decl : Json) (key : String) : Option String :=
  (decl.field? key).bind Json.nonEmptyText?

/-- Whether a switch of a declaration is on: any value that is not void switches it on. -/
def switchField (decl : Json) (key : String) : Bool :=
  (decl.field? key).any fun value => !value.isVoid

/-- An item of a list of members. -/
def memberEntry [Interpreter] : Json → MemberEntry
  | .string name => .named name numericKind
  | value => .other (value.literal (Interpreter.showRoom []))

/-- The members that a value lists: the items of an array, the keys of an object, or the characters
of a text. A void value lists none, and any other value cannot be gone through. -/
def memberEntries [Interpreter] (value : Json) : Except Error (List MemberEntry) :=
  if value.isVoid then .ok []
  else
    match value with
    | .array items => .ok (items.map memberEntry)
    | .object fields => .ok ((Entries.keys fields).map fun name => .named name numericKind)
    | .string text => .ok (text.toList.map fun c => .named (String.singleton c) numericKind)
    | value => .error (.notIterable value.typeName)

/-- Whether a declaration is of a kind. -/
def isOfKind (decl : Json) (kind : String) : Bool :=
  (decl.field? kind).isSome

section

variable [Interpreter]

/-- The draft after one declaration. The first kind that the declaration is of counts. -/
def replayOne (draft : Draft) (decl : Json) : Except Error Draft :=
  let text := fun key => (textField? decl key).getD ""
  if isOfKind decl "include" then
    ((draft.addInclude (text "include") (switchField decl "local")).map Prod.snd).mapError .ofDraft
  else if isOfKind decl "export" then
    (draft.setModeNamed (text "export")).mapError .ofDraft
  else if isOfKind decl "constant" then
    ((draft.addConstant (text "constant") (chosenField? decl "name")).map Prod.snd).mapError
      .ofDraft
  else if isOfKind decl "structure" then do
    let members ← memberEntries ((decl.field? "members").getD .null)
    ((draft.addStruct (text "structure") members (chosenField? decl "encode_func")
      (chosenField? decl "decode_func") (switchField decl "with_tail")).map Prod.snd).mapError
        .ofDraft
  else
    match decl.literal (Interpreter.showRoom []) with
    | .ok shown => .error (.ofTarget (.unknownDeclaration shown))
    | .error fault => .error (.ofText .showing fault)

/-- The draft after some declarations, in order. -/
def replay (draft : Draft) : List Json → Except Error Draft
  | [] => .ok draft
  | decl :: decls => do
    let next ← replayOne draft decl
    replay next decls

/-- The draft of a target. Its label names the target unless another one is given. -/
def ofTarget (config : Json) (name : String) (label : Option String) : Except Error Draft := do
  let target ← (Target.find config (some name)).mapError .ofTarget
  let label := chosenName label s!"target '{name}'"
  let draft ← (start (some (Target.moduleName target)) label none).mapError .ofDraft
  match target.field? "declarations" with
  | some (.array decls) => replay draft decls
  | _ => .error (.ofTarget (.noDeclarations name))

end

end HeaderBind.Draft
