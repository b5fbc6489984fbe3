import HeaderBind.Draft.Command
import HeaderBind.Proofs.Draft.Finish
import HeaderBind.Proofs.Draft.Steps
import HeaderBind.Proofs.Result

/-!
# `HeaderBind.Proofs.Draft.Run`: what a run of commands makes of a draft

A session performs commands, and each of them is accepted or refused. `Draft.Step` lists what a
single command can make of the draft: nothing, a new name, one more header, another mode, one more
declaration, or a cleared draft. `Session.step_after` says that there is nothing else, whatever the
command is, whatever the probe answers and whatever becomes of the files.

`Draft.Reachable` are the drafts that runs come to, from a new draft by any commands.
`Reachable.invariant` is the one induction over runs: what holds of every new draft and is kept by
every step holds of every reachable draft.

Only `finish`, and through it `write` and `leave`, does more than one thing: it runs the probe,
resolves, renders, and clears the draft at the very end. `KeepsDraft` is the frame of everything in
front of that end.
-/

set_option autoImplicit false

namespace HeaderBind

namespace Draft

/-- What a command can make of a draft. -/
inductive Step (draft : Draft) : Draft → Prop
  | stay : Step draft draft
  | rename {name : String} {next : Draft} (accepted : draft.rename name = .ok next) :
      Step draft next
  | addInclude {path : String} {isLocal : Bool} {header : Include} {next : Draft}
      (accepted : draft.addInclude path isLocal = .ok (header, next)) : Step draft next
  | setMode (mode : ExportMode) : Step draft (draft.setMode mode)
  | constant {source : String} {exposed : Option String} {c : Constant} {next : Draft}
      (made : Constant.make source exposed draft.mode = .ok c)
      (registered : draft.register (.constant c) = .ok next) : Step draft next
  | struct {name : String} {members : List Declaration.MemberEntry}
      {encoder decoder : Option String} {hasTail : Bool} {s : Struct} {next : Draft}
      (made : Struct.make name members draft.mode encoder decoder hasTail = .ok s)
      (registered : draft.register (.struct s) = .ok next) : Step draft next
  | clear : Step draft draft.cleared

/-- Switching the mode by its name switches to the mode of the name. -/
theorem setMode_of_setModeNamed {draft next : Draft} {name : String}
    (h : draft.setModeNamed name = .ok next) :
    ∃ mode, ExportMode.ofName name = .ok mode ∧ next = draft.setMode mode := by
  rw [(setModeNamed_spec name).2] at h
  obtain ⟨mode, hmode, hnext⟩ := map_eq_ok_iff.mp h
  exact ⟨mode, mapError_eq_ok_iff.mp hmode, hnext.symm⟩

/-- A constant that was added was made under the mode in force, and registered. -/
theorem register_of_addConstant {draft next : Draft} {source : String} {exposed : Option String}
    {c : Constant} (h : draft.addConstant source exposed = .ok (c, next)) :
    Constant.make source exposed draft.mode = .ok c ∧ draft.register (.constant c) = .ok next := by
  rw [(addConstant_spec source exposed).2] at h
  obtain ⟨made, hmade, h⟩ := bind_eq_ok_iff.mp h
  obtain ⟨registered, hregistered, h⟩ := bind_eq_ok_iff.mp h
  cases h
  exact ⟨mapError_eq_ok_iff.mp hmade, hregistered⟩

/-- A structure that was added was made under the mode in force, and registered. -/
theorem register_of_addStruct {draft next : Draft} {name : String}
    {members : List Declaration.MemberEntry} {encoder decoder : Option String} {hasTail : Bool}
    {s : Struct} (h : draft.addStruct name members encoder decoder hasTail = .ok (s, next)) :
    Struct.make name members draft.mode encoder decoder hasTail = .ok s ∧
      draft.register (.struct s) = .ok next := by
  rw [(addStruct_spec name members encoder decoder hasTail).2] at h
  obtain ⟨made, hmade, h⟩ := bind_eq_ok_iff.mp h
  obtain ⟨registered, hregistered, h⟩ := bind_eq_ok_iff.mp h
  cases h
  exact ⟨mapError_eq_ok_iff.mp hmade, hregistered⟩

end Draft

namespace Session

open Effect (Keeps bind_apply get_bind_apply keeps_bind keeps_modify keeps_pure keeps_throw)

/-- The session that an action leaves behind, whether it is accepted or refused. -/
def left {α : Type} : EStateM.Result Error Session α → Session
  | .ok _ next => next
  | .error _ next => next

/-- The session after a command. -/
def after [Interpreter] (session : Session) (answer : String → Except Error String)
    (command : DraftCommand) : Session :=
  left (perform answer command session)

/-- An action that leaves the draft as it was. -/
def KeepsDraft {α : Type} (act : SessionAction α) : Prop :=
  ∀ session, (left (act session)).draft = session.draft

theorem keepsDraft_of_keeps {α : Type} {act : SessionAction α} (h : Keeps Session.draft act) :
    KeepsDraft act := by
  intro session
  have hkept := h session
  cases hrun : act session <;> rwa [hrun] at hkept

theorem keepsDraft_pure {α : Type} (value : α) : KeepsDraft (pure value : SessionAction α) :=
  fun _ => rfl

/-- Running a probe program only notes it. -/
theorem keeps_draft_runProbe (answer : String → Except Error String) (source : String) :
    Keeps Session.draft (runProbe answer source) := by
  refine keeps_bind (keeps_modify fun _ => rfl) fun _ => ?_
  cases answer source with
  | ok output => exact keeps_pure output
  | error error => exact keeps_throw error

/-- What is done on the host is not done to the draft. -/
theorem keepsDraft_onHost {α : Type} (act : Action α) : KeepsDraft (onHost act) := by
  intro session
  unfold onHost
  cases act session.host <;> rfl

/-- Finishing clears the draft or, if it is refused, leaves it as it was. -/
theorem finish_cases (answer : String → Except Error String) (session : Session) :
    (∃ text next, finish answer session = .ok text next ∧ next.draft = session.draft.cleared) ∨
      ∃ error next, finish answer session = .error error next ∧ next.draft = session.draft := by
  -- Rendering leaves the draft of the session alone; the cleared draft is only answered.
  have hkeeps := Draft.keeps_finish (keeps_draft_runProbe answer) session.draft session
  simp only [finish, get_bind_apply]
  rw [bind_apply]
  cases hfinish : session.draft.finish (runProbe answer) session with
  | ok answered next =>
      obtain ⟨text, cleared⟩ := answered
      obtain ⟨name, resolved, -, -, -, hcleared⟩ := Draft.of_finish hfinish
      exact Or.inl ⟨text, _, rfl, hcleared⟩
  | error error next =>
      rw [hfinish] at hkeeps
      exact Or.inr ⟨error, next, rfl, hkeeps⟩

/-- An action that clears the draft or leaves it as it was. -/
def MayClear {α : Type} (act : SessionAction α) : Prop :=
  ∀ session, (left (act session)).draft = session.draft.cleared ∨
    (left (act session)).draft = session.draft

theorem mayClear_finish (answer : String → Except Error String) :
    MayClear (finish answer) := by
  intro session
  rcases finish_cases answer session with ⟨text, next, hrun, h⟩ | ⟨error, next, hrun, h⟩
  · rw [hrun]
    exact Or.inl h
  · rw [hrun]
    exact Or.inr h

/-- What comes behind an action that may clear the draft must keep it. -/
theorem mayClear_bind {α β : Type} {act : SessionAction α} {next : α → SessionAction β}
    (hact : MayClear act) (hnext : ∀ value, KeepsDraft (next value)) :
    MayClear (act >>= next) := by
  intro session
  have hfirst := hact session
  rw [bind_apply]
  cases hrun : act session with
  | ok value middle =>
      rw [hrun] at hfirst
      exact hfirst.imp (hnext value middle).trans (hnext value middle).trans
  | error error middle =>
      rw [hrun] at hfirst
      exact hfirst

/-- Writing finishes the draft first; the file comes behind. -/
theorem mayClear_write [Interpreter] (answer : String → Except Error String) (path : Option Path)
    (mode : WriteMode) : MayClear (write answer path mode) := by
  intro session
  simp only [write, get_bind_apply]
  cases path <|> session.draft.outputPath with
  | none => exact Or.inr rfl
  | some path =>
      exact mayClear_bind (mayClear_finish answer) (fun text => keepsDraft_onHost _) session

/-- Leaving does nothing, writes, or finishes. -/
theorem mayClear_leave [Interpreter] (answer : String → Except Error String) (failed : Bool) :
    MayClear (leave answer failed) := by
  intro session
  simp only [leave, get_bind_apply]
  split
  · exact Or.inr rfl
  · cases session.draft.outputPath with
    | none => exact mayClear_finish answer session
    | some path =>
        exact mayClear_bind (mayClear_bind (mayClear_write answer (some path) .apply)
          fun _ => keepsDraft_pure _) (fun _ => keepsDraft_pure _) session

/-- An action that may clear the draft takes one step or none. -/
theorem step_of_mayClear {α : Type} {act : SessionAction α} (h : MayClear act)
    (session : Session) : Draft.Step session.draft (left (act session)).draft := by
  rcases h session with hcleared | hkept
  · rw [hcleared]
    exact .clear
  · rw [hkept]
    exact .stay

/-- An operation on the draft as a command: it is answered with the draft that it comes to, or is
refused and leaves the session as it was. -/
theorem onDraft_bind_apply {α : Type} {act : DraftAction α} (h : DraftAction.Atomic act)
    (reply : α → DraftReply) (session : Session) :
    (onDraft act >>= fun value => pure (reply value) : SessionAction DraftReply) session
      = match Draft.outcome act session.draft with
        | .ok (value, next) => .ok (reply value) { session with draft := next }
        | .error fault => .error (.ofDraft fault) session := by
  rw [bind_apply, onDraft_apply h]
  cases Draft.outcome act session.draft <;> rfl

/-- A refused operation takes no step, so an accepted one is all there is to judge. -/
theorem step_onDraft {α : Type} {act : DraftAction α} (h : DraftAction.Atomic act)
    (reply : α → DraftReply) (session : Session)
    (accepted : ∀ value next, Draft.outcome act session.draft = .ok (value, next) →
      Draft.Step session.draft next) :
    Draft.Step session.draft
      (left ((onDraft act >>= fun value => pure (reply value) : SessionAction DraftReply)
        session)).draft := by
  rw [onDraft_bind_apply h]
  cases hrun : Draft.outcome act session.draft with
  | error fault => exact .stay
  | ok answered => exact accepted answered.1 answered.2 hrun

/-- Whatever a command comes to, the draft has taken one step or none. -/
theorem step_after [Interpreter] (session : Session) (answer : String → Except Error String)
    (command : DraftCommand) : Draft.Step session.draft (session.after answer command).draft := by
  -- An operation on the draft is one step; everything else keeps the draft or clears it at the end.
  cases command with
  | rename name =>
      refine step_onDraft (Draft.rename_spec name).1 (fun _ => .done) session fun _ _ hrun => ?_
      exact .rename (Draft.next_eq_ok hrun)
  | addInclude path isLocal =>
      exact step_onDraft (Draft.addInclude_spec path isLocal).1 .included session
        fun _ _ hrun => .addInclude hrun
  | setMode mode => exact .setMode mode
  | setModeNamed name =>
      refine step_onDraft (Draft.setModeNamed_spec name).1 (fun _ => .done) session
        fun _ _ hrun => ?_
      obtain ⟨mode, -, rfl⟩ := Draft.setMode_of_setModeNamed (Draft.next_eq_ok hrun)
      exact .setMode mode
  | addConstant source exposed =>
      refine step_onDraft (Draft.addConstant_spec source exposed).1
        (fun c => .declared (.constant c)) session fun _ _ hrun => ?_
      obtain ⟨hmade, hregistered⟩ := Draft.register_of_addConstant hrun
      exact .constant hmade hregistered
  | addStruct name members encoder decoder hasTail =>
      refine step_onDraft (Draft.addStruct_spec name members encoder decoder hasTail).1
        (fun s => .declared (.struct s)) session fun _ _ hrun => ?_
      obtain ⟨hmade, hregistered⟩ := Draft.register_of_addStruct hrun
      exact .struct hmade hregistered
  | showProbe => exact .stay
  | resolve =>
      simp only [after, perform, get_bind_apply]
      have hkeeps := Draft.keeps_resolve (keeps_draft_runProbe answer) session.draft
      rw [keepsDraft_of_keeps (keeps_bind hkeeps fun _ => keeps_pure _) session]
      exact .stay
  | finish =>
      exact step_of_mayClear (mayClear_bind (mayClear_finish answer) fun _ => keepsDraft_pure _)
        session
  | write path mode =>
      exact step_of_mayClear
        (mayClear_bind (mayClear_write answer (path.map Path.ofString) mode)
          fun _ => keepsDraft_pure _) session
  | leave failed =>
      exact step_of_mayClear
        (mayClear_bind (mayClear_leave answer failed) fun _ => keepsDraft_pure _) session

/-- A run of commands is their effects one after the other. -/
theorem runAll_snd [Interpreter] (answer : String → Except Error String)
    (commands : List DraftCommand) (session : Session) :
    (runAll answer commands session).2
      = commands.foldl (fun session command => session.after answer command) session := by
  induction commands generalizing session with
  | nil => rfl
  | cons command commands ih =>
      rw [List.foldl_cons, ← ih, after, runAll]
      cases perform answer command session <;> rfl

end Session

namespace Draft

/-- The drafts that runs of commands come to, from a new draft. Neither the host nor the room that
the interpreter leaves nor what a probe answers is fixed: they may differ from command to
command. -/
inductive Reachable : Draft → Prop
  | new {name : Option String} {label : String} {outputPath : Option Path} {draft : Draft}
      (started : start name label outputPath = .ok draft) : Reachable draft
  | after [Interpreter] {session : Session} (answer : String → Except Error String)
      (command : DraftCommand) (reachable : Reachable session.draft) :
      Reachable (session.after answer command).draft

/-- A new draft is an empty one, with a name that was accepted or without one. -/
theorem eq_empty_of_start {name : Option String} {label : String} {outputPath : Option Path}
    {draft : Draft} (h : start name label outputPath = .ok draft) :
    draft = empty name label outputPath := by
  cases name with
  | none =>
      cases h
      rfl
  | some name =>
      have hrename : (empty none label outputPath).rename name = .ok draft := h
      obtain ⟨-, -, rfl⟩ := rename_eq_ok_iff.mp hrename
      rfl

namespace Reachable

/-- What every new draft has and every step keeps, every reachable draft has. -/
theorem invariant {P : Draft → Prop}
    (new : ∀ name label outputPath, P (empty name label outputPath))
    (step : ∀ {draft next}, Step draft next → P draft → P next)
    {draft : Draft} (h : Reachable draft) : P draft := by
  induction h with
  | new started =>
      rw [eq_empty_of_start started]
      exact new _ _ _
  | after answer command _ ih => exact step (Session.step_after _ answer command) ih

/-- A session that starts from a reachable draft ends with one. -/
theorem runAll [Interpreter] {session : Session} (answer : String → Except Error String)
    (commands : List DraftCommand) (h : Reachable session.draft) :
    Reachable (Session.runAll answer commands session).2.draft := by
  rw [Session.runAll_snd]
  induction commands generalizing session with
  | nil => exact h
  | cons command commands ih => exact ih (.after answer command h)

end Reachable

/-- A session on a machine with nothing on it. -/
def bareSession (draft : Draft) : Session where
  draft := draft
  host := ⟨⟨[]⟩, [], [], [], ⟨none, []⟩, [], .posix, [], [], [], "", ""⟩
  probed := []

/-- The draft that some commands come to, on a machine with nothing on it and from a new draft. -/
def drafted (commands : List DraftCommand) : Draft :=
  (Session.runAll (fun _ => .ok "") commands (bareSession (empty none "demo" none))).2.draft

theorem reachable_drafted (commands : List DraftCommand) : Reachable (drafted commands) := by
  have hnew : Reachable (bareSession (empty none "demo" none)).draft :=
    .new (rfl : start none "demo" none = .ok (empty none "demo" none))
  exact Reachable.runAll _ commands hnew

end Draft

end HeaderBind
