import HeaderBind.Artifact
import HeaderBind.Draft.Finish

/-!
# `HeaderBind.Draft.Command`: sessions with a draft

A session is a draft, the host it writes to, and the probe programs that were run for it. Every
operation on the draft is a command, so that what holds after any run of commands can be stated
over lists of them. What a command has changed when it is refused stays changed. Writing a module
finishes the draft before the file is touched, so a refusal by the file comes after the declarations
are gone; every other refusal leaves the draft as it was.
-/

set_option autoImplicit false

namespace HeaderBind

/-- A draft in use. -/
structure Session where
  draft : Draft
  host : Host
  /-- The probe programs that were run, the first one in front. -/
  probed : List String

/-- A step of a session. Its effects stay when it fails. -/
abbrev SessionAction := EStateM Error Session

/-- An operation on a draft. -/
inductive DraftCommand where
  | rename (name : String)
  | addInclude (path : String) (isLocal : Bool)
  | setMode (mode : ExportMode)
  | setModeNamed (name : String)
  | addConstant (source : String) (exposed : Option String)
  | addStruct (name : String) (members : List Declaration.MemberEntry)
      (encoder decoder : Option String) (hasTail : Bool)
  | showProbe
  | resolve
  | finish
  | write (path : Option String) (mode : WriteMode)
  /-- The end of the work on the draft. After a failure nothing is done; otherwise the module of
  the declarations that wait is written to its place, or printed if it has none. -/
  | leave (failed : Bool)

/-- What a command answers. -/
inductive DraftReply where
  | done
  | included (header : Include)
  | declared (declaration : Declaration)
  | text (content : String)
  | resolved (declarations : List Resolved)
  | written (status : ArtifactStatus) (difference : String)
  | printed (content : String)

namespace Session

/-- Does something to the draft. -/
def onDraft {α : Type} (act : DraftAction α) : SessionAction α := fun session =>
  match act session.draft with
  | .ok value draft => .ok value { session with draft := draft }
  | .error fault draft => .error (.ofDraft fault) { session with draft := draft }

/-- Runs the probe program of the draft and notes it. -/
def runProbe (answer : String → Except Error String) (source : String) : SessionAction String := do
  modify fun session => { session with probed := session.probed ++ [source] }
  match answer source with
  | .ok output => pure output
  | .error error => throw error

/-- Does something on the host. -/
def onHost {α : Type} (act : Action α) : SessionAction α := fun session =>
  match act session.host with
  | .ok value host => .ok value { session with host := host }
  | .error error host => .error error { session with host := host }

/-- The text of the module; the draft starts over. -/
def finish (answer : String → Except Error String) : SessionAction String := do
  let session ← get
  let (text, next) ← session.draft.finish (runProbe answer)
  modify fun session => { session with draft := next }
  pure text

variable [Interpreter]

/-- Writes the module to a path, or to the place of the draft. -/
def write (answer : String → Except Error String) (path : Option Path) (mode : WriteMode) :
    SessionAction (ArtifactStatus × String) := do
  let session ← get
  match path <|> session.draft.outputPath with
  | none => throw (.ofDraft (.noOutputPath session.draft.name))
  | some path =>
    let text ← finish answer
    onHost (Artifact.write path text mode)

/-- Ends the work on the draft: what is printed. -/
def leave (answer : String → Except Error String) (failed : Bool) : SessionAction String := do
  let session ← get
  if failed || !session.draft.isPending then pure ""
  else
    match session.draft.outputPath with
    | some path =>
      discard <| write answer (some path) .apply
      pure ""
    | none => finish answer

/-- Performs a command. `answer` is what a probe program prints. -/
def perform (answer : String → Except Error String) : DraftCommand → SessionAction DraftReply
  | .rename name => do
    onDraft (DraftAction.rename name)
    pure .done
  | .addInclude path isLocal => do
    return .included (← onDraft (DraftAction.addInclude path isLocal))
  | .setMode mode => do
    onDraft (DraftAction.setMode mode)
    pure .done
  | .setModeNamed name => do
    onDraft (DraftAction.setModeNamed name)
    pure .done
  | .addConstant source exposed => do
    return .declared (.constant (← onDraft (DraftAction.addConstant source exposed)))
  | .addStruct name members encoder decoder hasTail => do
    return .declared
      (.struct (← onDraft (DraftAction.addStruct name members encoder decoder hasTail)))
  | .showProbe => do
    return .text (← get).draft.probeSource
  | .resolve => do
    return .resolved (← (← get).draft.resolve (runProbe answer))
  | .finish => do
    return .text (← finish answer)
  | .write path mode => do
    let (status, difference) ← write answer (path.map Path.ofString) mode
    return .written status difference
  | .leave failed => do
    return .printed (← leave answer failed)

/-- Performs commands one after the other, whatever becomes of each: what each of them came to,
and the session in the end. -/
def runAll (answer : String → Except Error String) :
    List DraftCommand → Session → List (Except Error DraftReply) × Session
  | [], session => ([], session)
  | command :: commands, session =>
    match perform answer command session with
    | .ok reply next =>
      let (replies, final) := runAll answer commands next
      (.ok reply :: replies, final)
    | .error error next =>
      let (replies, final) := runAll answer commands next
      (.error error :: replies, final)

end Session

end HeaderBind
