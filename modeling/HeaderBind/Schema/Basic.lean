import HeaderBind.Json.Literal
import HeaderBind.Name

/-!
# `HeaderBind.Schema.Basic`: shapes of documents

A schema says what a document value may be. The shapes are those that a configuration needs, each
with a fixed list of rules; `check` applies every rule and collects all violations in the order of
the rules, so a valid value is one without violations. Which of several violations is reported is
the business of `HeaderBind.Schema.Relevance`.

The two modules stand for the validator of a library: its rules, its order of rules and its messages
are followed as they are documented, for these shapes only. The message about a violation is made
when the violation is found, whether it is reported in the end or not, so a value that cannot be
shown ends the check (`Violation.faults?`).
-/

set_option autoImplicit false

namespace HeaderBind

/-- The form of a text. -/
inductive TextForm where
  | nonEmpty
  | identifier
  | moduleName
  | structName
  deriving DecidableEq, Repr

namespace TextForm

/-- The pattern that texts of the form match; that of the non-empty text is left unsaid. -/
def pattern : TextForm → String
  | nonEmpty => ""
  | identifier => "^[A-Za-z_][A-Za-z0-9_]*$"
  | moduleName => "^[A-Za-z_][A-Za-z0-9_]*(\\.[A-Za-z_][A-Za-z0-9_]*)*$"
  | structName => "^(struct\\s+)?[A-Za-z_][A-Za-z0-9_]*$"

/-- Whether a text has the form. -/
def admits : TextForm → String → Bool
  | nonEmpty, s => !s.isEmpty
  | identifier, s => Name.isName s
  | moduleName, s => Name.isModuleName s
  | structName, s => Name.isStructName s

end TextForm

/-- What a document value may be. -/
inductive Schema where
  /-- A text of some form. -/
  | text (form : TextForm)
  /-- True or false. -/
  | flag
  /-- One of some texts. -/
  | choice (allowed : List String)
  /-- An array of values of one shape, with at least so many items. -/
  | list (least : Nat) (item : Schema)
  /-- An object with named fields; a closed one has no others. -/
  | record (required : List String) (closed : Bool) (fields : List (String × Schema))
  /-- An object with arbitrary keys and values of one shape, with at least so many fields. -/
  | table (least : Nat) (value : Schema)
  /-- A value of exactly one of some shapes, which exclude each other. -/
  | oneOf (alternatives : List Schema)
  deriving Repr

namespace Schema

/-- The types of values that a shape can ask for. -/
inductive Kind where
  | string
  | boolean
  | array
  | object
  deriving DecidableEq, Repr

/-- The name of a type. -/
def Kind.name : Kind → String
  | string => "string"
  | boolean => "boolean"
  | array => "array"
  | object => "object"

/-- Whether a value is of a type. -/
def Kind.holds : Kind → Json → Bool
  | string, .string _ => true
  | boolean, .bool _ => true
  | array, .array _ => true
  | object, .object _ => true
  | _, _ => false

/-- A step from a value to one inside it. -/
inductive Step where
  | key (name : String)
  | index (number : Nat)
  deriving DecidableEq, Repr

/-- The text of a step. -/
def Step.text : Step → String
  | key name => name
  | index number => toString number

/-- The rule that a value breaks. -/
inductive Problem where
  | wrongKind (expected : Kind)
  | missingKey (key : String)
  | tooSmall
  | noMatch (pattern : String)
  | notAllowed (allowed : List String)
  | unexpectedKeys (keys : List String)
  | noAlternative
  deriving DecidableEq, Repr

/-- Whether the message about a rule shows the value that breaks it. -/
def Problem.showsValue : Problem → Bool
  | missingKey _ | unexpectedKeys _ => false
  | _ => true

/-- A broken rule: where the value lies, seen from the value that was checked, the value, the
rule, and whether the shape asks for a type that the value has. A value that fits no alternative
has the violations of all alternatives as context, their paths seen from it. -/
inductive Violation where
  | mk (path : List Step) (value : Json) (problem : Problem) (ofKind : Bool)
    (context : List Violation)

namespace Violation

/-- Where the value lies. -/
def path : Violation → List Step
  | mk path _ _ _ _ => path

/-- The value that breaks the rule. -/
def value : Violation → Json
  | mk _ value _ _ _ => value

/-- The rule that is broken. -/
def problem : Violation → Problem
  | mk _ _ problem _ _ => problem

/-- Whether the shape asks for a type that the value has. -/
def ofKind : Violation → Bool
  | mk _ _ _ ofKind _ => ofKind

/-- The violations of the alternatives. -/
def context : Violation → List Violation
  | mk _ _ _ _ context => context

/-- The violation as seen from the value that holds the checked one. -/
def inside (step : Step) : Violation → Violation
  | mk path value problem ofKind context => mk (step :: path) value problem ofKind context

/-- The wording of a violation, its value shown however large it is. -/
def message (violation : Violation) : String :=
  let shown := violation.value.spelled
  match violation.problem with
  | .wrongKind expected => s!"{shown} is not of type {Text.quoted expected.name}"
  | .missingKey key => s!"{Text.quoted key} is a required property"
  | .tooSmall => s!"{shown} should be non-empty"
  | .noMatch pattern => s!"{shown} does not match {Text.quoted pattern}"
  | .notAllowed allowed => s!"{shown} is not one of {Text.quotedList allowed}"
  | .unexpectedKeys keys =>
    let names := ", ".intercalate (keys.map Text.quoted)
    let verb := if keys.length = 1 then "was" else "were"
    s!"Additional properties are not allowed ({names} {verb} unexpected)"
  | .noAlternative => s!"{shown} is not valid under any of the given schemas"

section

variable [Interpreter]

mutual

/-- What keeps the messages about a violation and its context from being made, if anything does.
Those about the context are made first. `around` holds the places of the values whose alternatives
are being tried. -/
def fault? (around : List (List String)) : Violation → Option Json.TextFault
  | mk path value problem _ context =>
    let places := around ++ [path.map Step.text]
    (faults? places context).or
      (if problem.showsValue then value.textFault? (Interpreter.showRoom places) else none)

/-- What keeps the messages about some violations from being made; the first one decides. -/
def faults? (around : List (List String)) : List Violation → Option Json.TextFault
  | [] => none
  | violation :: violations => (fault? around violation).or (faults? around violations)

end

end

end Violation

/-- The violation of a rule by a value itself. -/
def broken (value : Json) (problem : Problem) (ofKind : Bool) : Violation :=
  .mk [] value problem ofKind []

/-- The violation of the rule on the type of a value. -/
def wrongKind (value : Json) (expected : Kind) : List Violation :=
  [broken value (.wrongKind expected) false]

/-- The violation of a rule on a value of the right type, unless the rule holds. -/
def demand (holds : Bool) (value : Json) (problem : Problem) : List Violation :=
  if holds then [] else [broken value problem true]

/-- The violation by a text that has not the required form. -/
def checkForm (form : TextForm) (value : Json) (s : String) : List Violation :=
  demand (form.admits s) value (if form = .nonEmpty then .tooSmall else .noMatch form.pattern)

/-- Applies a check to the items of an array, numbered from `start`. -/
def checkItems (check : Json → List Violation) : (start : Nat) → List Json → List Violation
  | _, [] => []
  | start, item :: items =>
    (check item).map (.inside (.index start)) ++ checkItems check (start + 1) items

/-- Applies a check to the values of an object. -/
def checkValues (check : Json → List Violation) (fields : List (String × Json)) :
    List Violation :=
  fields.flatMap fun field => (check field.2).map (.inside (.key field.1))

/-- The violation by the keys of an object that a closed record does not know. -/
def checkKnown (known : List String) (value : Json) (fields : List (String × Json)) :
    List Violation :=
  let extra := (Entries.keys fields).filter fun key => !known.contains key
  demand extra.isEmpty value (.unexpectedKeys (Json.sortTexts extra))

/-- The violations by the keys that a record requires. -/
def checkRequired (required : List String) (value : Json) (fields : List (String × Json)) :
    List Violation :=
  required.flatMap fun key =>
    demand (Entries.get? fields key).isSome value (.missingKey key)

mutual

/-- Every violation of a shape by a value, in the order of the rules. -/
def check : Schema → Json → List Violation
  | .text form, value =>
    match value with
    | .string s => checkForm form value s
    | _ => wrongKind value .string
  | .flag, value =>
    match value with
    | .bool _ => []
    | _ => wrongKind value .boolean
  | .choice allowed, value =>
    match value with
    | .string s =>
      if allowed.contains s then [] else [broken value (.notAllowed allowed) false]
    | _ => [broken value (.notAllowed allowed) false]
  | .list least item, value =>
    match value with
    | .array items =>
      demand (least ≤ items.length) value .tooSmall ++ checkItems (check item) 0 items
    | _ => wrongKind value .array
  | .record required closed fields, value =>
    match value with
    | .object given =>
      checkRequired required value given ++
        (if closed then checkKnown (fields.map Prod.fst) value given else []) ++
        checkFields fields given
    | _ => wrongKind value .object
  | .table least entry, value =>
    match value with
    | .object given =>
      demand (least ≤ given.length) value .tooSmall ++ checkValues (check entry) given
    | _ => wrongKind value .object
  | .oneOf alternatives, value =>
    match checkAlternatives alternatives value with
    | none => []
    | some context => [.mk [] value .noAlternative false context]

/-- The violations by the named fields that are there. -/
def checkFields : List (String × Schema) → List (String × Json) → List Violation
  | [], _ => []
  | (key, schema) :: fields, given =>
    (match Entries.get? given key with
      | some value => (check schema value).map (.inside (.key key))
      | none => []) ++ checkFields fields given

/-- The violations of all alternatives, unless the value fits one of them. A value that fits one
breaks only the rules of the others about keys, if each alternative is told apart by its keys, and
messages about keys show no value. -/
def checkAlternatives : List Schema → Json → Option (List Violation)
  | [], _ => some []
  | schema :: schemas, value =>
    match check schema value, checkAlternatives schemas value with
    | [], _ => none
    | _, none => none
    | violations, some others => some (violations ++ others)

end

end Schema

end HeaderBind
