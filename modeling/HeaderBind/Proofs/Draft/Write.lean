import HeaderBind.Proofs.Draft.Refusal

/-!
# `HeaderBind.Proofs.Draft.Write`: what is left of a draft that could not be written

To write a module is to make its text and then to write a file. The draft is cleared in between, so
a refusal leaves one of two things behind (`RefusedWrite`). If the text could not be made, or there
was no place for it, the draft and the host are as they were, and later commands come to the same as
if nothing had been tried. If the file refused the text, the declarations have gone into that text,
and the draft is the cleared one.

`refused_reachesFiles` says which of the two it is: it is decided by whether there is a place and
whether finishing the draft would have been accepted. `cleared_of_directory` is a draft that is lost
to a directory at the place of its file.
-/

set_option autoImplicit false

namespace HeaderBind

/-- The file that a command reaches for. -/
def DraftCommand.place? (draft : Draft) : DraftCommand → Option Path
  | .write path _ => path.map Path.ofString <|> draft.outputPath
  | .leave _ => draft.outputPath
  | _ => none

/-- What a command does to a file that is out of date. -/
def DraftCommand.writeMode : DraftCommand → WriteMode
  | .write _ mode => mode
  | _ => .apply

namespace Session

open Effect (discard_bind_apply get_bind_apply of_bind_error)

variable {answer : String → Except Error String} {session refused : Session} {error : Error}

/-- How a command that writes the module is refused. -/
inductive RefusedWrite [Interpreter] (answer : String → Except Error String) (session : Session)
    (command : DraftCommand) (error : Error) (refused : Session) : Prop
  /-- There is no place for the module, or its text could not be made. -/
  | unmade
      (unmade : command.place? session.draft = none ∨
        finish answer session = .error error refused)
      (kept : refused.workpiece = session.workpiece) :
      RefusedWrite answer session command error refused
  /-- The text was made, and the file refused it. -/
  | file {path : Path} {text : String} {finished : Session}
      (place : command.place? session.draft = some path)
      (made : finish answer session = .ok text finished)
      (written : Artifact.write path text command.writeMode session.host
        = .error error refused.host)
      (cleared : refused.draft = session.draft.cleared) :
      RefusedWrite answer session command error refused

/-- Making the text of a module touches nothing on the host. -/
theorem host_of_finish {text : String} {finished : Session}
    (h : finish answer session = .ok text finished) : finished.host = session.host := by
  have hkept := Draft.keeps_finish (fun source =>
    (keeps_workpiece_runProbe answer source).map Prod.snd) session.draft session
  rw [finish, get_bind_apply] at h
  obtain ⟨made, middle, hmade, h⟩ := Effect.of_bind_ok h
  rw [hmade] at hkept
  cases h
  exact hkept

/-- The text and then the file: the part that writing and leaving have in common. -/
theorem refusedWrite_of_finish [Interpreter] {command : DraftCommand} {path : Path}
    (hplace : command.place? session.draft = some path)
    (h : (finish answer >>= fun text => onHost (Artifact.write path text command.writeMode))
      session = .error error refused) : RefusedWrite answer session command error refused := by
  rcases of_bind_error h with hrefused | ⟨text, finished, hmade, h⟩
  · exact .unmade (.inr hrefused) (workpiece_of_refused_finish hrefused)
  · obtain ⟨-, hcleared, -⟩ := of_finish hmade
    rw [onHost, host_of_finish hmade] at h
    cases hwrite : Artifact.write path text command.writeMode session.host with
    | ok made host =>
        rw [hwrite] at h
        cases h
    | error error host =>
        rw [hwrite] at h
        cases h
        exact .file hplace hmade hwrite hcleared

theorem refusedWrite_of_write [Interpreter] {path : Option String} {mode : WriteMode}
    (h : write answer (path.map Path.ofString) mode session = .error error refused) :
    RefusedWrite answer session (.write path mode) error refused := by
  rw [write, get_bind_apply] at h
  cases hplace : path.map Path.ofString <|> session.draft.outputPath with
  | none =>
      rw [hplace] at h
      cases h
      exact .unmade (.inl hplace) rfl
  | some place =>
      rw [hplace] at h
      exact refusedWrite_of_finish hplace h

theorem refusedWrite_of_leave [Interpreter] {failed : Bool}
    (h : leave answer failed session = .error error refused) :
    RefusedWrite answer session (.leave failed) error refused := by
  rw [leave, get_bind_apply] at h
  split at h
  · cases h
  · cases hplace : session.draft.outputPath with
    | none =>
        -- The text goes to whoever left the section, and no file can refuse it.
        rw [hplace] at h
        exact .unmade (.inl hplace) (workpiece_of_refused_finish h)
    | some place =>
        rw [hplace] at h
        simp only [discard_bind_apply] at h
        cases hwrite : write answer (some place) .apply session with
        | ok written next =>
            rw [hwrite] at h
            cases h
        | error fault next =>
            rw [hwrite] at h
            cases h
            exact refusedWrite_of_finish hplace hwrite

/-- A command that reaches for a file is refused before the file or by it. -/
theorem refusedWrite_of_perform [Interpreter] {command : DraftCommand}
    (hcommand : command.reachesFiles = true)
    (h : perform answer command session = .error error refused) :
    RefusedWrite answer session command error refused := by
  cases command with
  | write path mode =>
      rcases of_bind_error h with hrefused | ⟨⟨status, difference⟩, middle, -, h⟩
      · exact refusedWrite_of_write hrefused
      · cases h
  | leave failed =>
      rcases of_bind_error h with hrefused | ⟨content, middle, -, h⟩
      · exact refusedWrite_of_leave hrefused
      · cases h
  | _ => cases hcommand

/-- Two sessions with one draft and one host come to the same from there on, whatever probe programs
they have noted. -/
theorem later_of_workpiece [Interpreter] {other : Session} (h : other.workpiece = session.workpiece)
    (answer : String → Except Error String) (later : List DraftCommand) :
    transcript answer later other = transcript answer later session ∧
      (runAll answer later other).2.draft = (runAll answer later session).2.draft ∧
      Artifact.SameFiles (runAll answer later other).2.host
        (runAll answer later session).2.host := by
  obtain ⟨hdraft, hhost⟩ := Prod.mk.inj h
  -- Both run in step with the one session that has noted no probe program.
  have hone : { other with probed := [] } = { session with probed := [] } := by
    rw [hdraft, hhost]
  have hother := parallel_unprobed other
  rw [hone] at hother
  have hsession := parallel_unprobed session
  have hotherEnd := hother.runAll answer later
  have hsessionEnd := hsession.runAll answer later
  refine ⟨?_, hotherEnd.draft.trans hsessionEnd.draft.symm, ?_⟩
  · exact (transcript_eq_of_parallel answer later hother).trans
      (transcript_eq_of_parallel answer later hsession).symm
  · exact ⟨hotherEnd.files.1.trans hsessionEnd.files.1.symm,
      hotherEnd.files.2.trans hsessionEnd.files.2.symm⟩

/-- A refused command that writes the module leaves one of two things behind. Unless there is a
place for the module and finishing the draft would be accepted, the draft and the host are as they
were, and later commands, to whatever place and on whatever probe, come to the same as they would
have. Otherwise it was the file that refused, in front of which the declarations were used up: the
draft is the cleared one. -/
theorem refused_reachesFiles [Interpreter] {command : DraftCommand}
    (hcommand : command.reachesFiles = true)
    (h : perform answer command session = .error error refused) :
    ((∀ path text finished, command.place? session.draft = some path →
        finish answer session ≠ .ok text finished) →
      refused.draft = session.draft ∧ refused.host = session.host ∧
        ∀ (answer' : String → Except Error String) (later : List DraftCommand),
          transcript answer' later refused = transcript answer' later session ∧
            (runAll answer' later refused).2.draft = (runAll answer' later session).2.draft ∧
            Artifact.SameFiles (runAll answer' later refused).2.host
              (runAll answer' later session).2.host) ∧
    (∀ path text finished, command.place? session.draft = some path →
        finish answer session = .ok text finished →
      Artifact.write path text command.writeMode session.host = .error error refused.host ∧
        refused.draft = session.draft.cleared) := by
  cases refusedWrite_of_perform hcommand h with
  | unmade unmade kept =>
      obtain ⟨hdraft, hhost⟩ := Prod.mk.inj kept
      refine ⟨fun _ => ⟨hdraft, hhost, later_of_workpiece kept⟩,
        fun path text finished hplace hmade => ?_⟩
      rcases unmade with hnowhere | hrefused
      · rw [hnowhere] at hplace
        cases hplace
      · rw [hrefused] at hmade
        cases hmade
  | @file path text finished place made written cleared =>
      refine ⟨fun hunmade => absurd made (hunmade path text finished place), ?_⟩
      intro path' text' finished' hplace hmade
      rw [place] at hplace
      rw [made] at hmade
      cases hplace
      cases hmade
      exact ⟨written, cleared⟩

/-- A probe that reports the constant and the structure of the waiting session. -/
def pointAnswer (_ : String) : Except Error String :=
  .ok "LIMIT=7\npoint=8,x@0+4s,y@4+4s\n"

/-- A module whose structure cannot be laid out is not written, and it is written to another place
once the probe answers as it should. -/
theorem refused_reachesFiles_overlap :
    (DraftCommand.write (some "m.py") .apply).reachesFiles = true ∧
      ∃ error refused,
        perform overlapAnswer (.write (some "m.py") .apply) waitingSession = .error error refused ∧
          refused.draft = waitingSession.draft ∧
          transcript pointAnswer [.write (some "other.py") .apply] refused
            = transcript pointAnswer [.write (some "other.py") .apply] waitingSession := by
  have hunmade : (answered (finish overlapAnswer waitingSession)).isOk = false := by
    decide +kernel
  have hrefused : (answered (perform overlapAnswer (.write (some "m.py") .apply)
      waitingSession)).isOk = false := by decide +kernel
  cases hrun : perform overlapAnswer (.write (some "m.py") .apply) waitingSession with
  | ok reply next =>
      rw [hrun] at hrefused
      cases hrefused
  | error error refused =>
      obtain ⟨hdraft, -, hlater⟩ := (refused_reachesFiles rfl hrun).1
        fun path text finished _ hmade => by rw [hmade] at hunmade; cases hunmade
      exact ⟨rfl, error, refused, rfl, hdraft, (hlater pointAnswer _).1⟩

/-- The waiting session on a host with a directory. -/
def directorySession : Session :=
  { waitingSession with
    host := { waitingSession.host with tree := ⟨[(["out"], .directory)]⟩ } }

/-- The session after the module was to be written to the place of the directory. -/
def strandedSession : Session :=
  directorySession.after pointAnswer (.write (some "out") .apply)

/-- A directory lies at the place of the file. That is found out when the text is there, so the
declarations are gone, and writing to another place writes another module. -/
theorem cleared_of_directory :
    Draft.Reachable directorySession.draft ∧
      (∃ fault, perform pointAnswer (.write (some "out") .apply) directorySession
        = .error (.configuration (.unreadableFile "out" fault)) strandedSession) ∧
      directorySession.draft.declarations.length = 2 ∧
      strandedSession.draft = directorySession.draft.cleared ∧
      (strandedSession.after pointAnswer (.write (some "m.py") .apply)).host.tree.node? ["m.py"]
        ≠ (directorySession.after pointAnswer (.write (some "m.py") .apply)).host.tree.node?
          ["m.py"] := by
  have hnew : Draft.Reachable (Draft.bareSession (Draft.empty none "demo" none)).draft :=
    .new (rfl : Draft.start none "demo" none = .ok (Draft.empty none "demo" none))
  have hreachable : Draft.Reachable waitingSession.draft := Draft.Reachable.runAll _ _ hnew
  have hrun : (match perform pointAnswer (.write (some "out") .apply) directorySession with
      | .error (.configuration (.unreadableFile name _)) _ => name == "out"
      | _ => false) = true := by decide +kernel
  refine ⟨hreachable, ?_, by decide +kernel, by decide +kernel, by decide +kernel⟩
  rw [strandedSession, after]
  split at hrun
  · rename_i name fault refused hrefused
    obtain rfl := beq_iff_eq.mp hrun
    rw [hrefused]
    exact ⟨fault, rfl⟩
  · cases hrun

end Session

end HeaderBind
