import HeaderBind.Proofs.Draft.Section

/-!
# `HeaderBind.Proofs.Draft.Refusal`: what a refused command leaves behind

A draft is used by people and by configurations that get names wrong, and a probe can fail in many
places. None of this may leave half a declaration in the draft. `refused_perform` says of a command
that is refused, whatever it was refused for: the draft and the host are as they were, and the
session has only noted the probe program that was run, if there was one. So the same later commands
come to the same as if the refused one had never been made.

An operation on the draft is judged before it changes anything (`DraftAction.Atomic`). To
resolve and to finish are the ones with work in front of the end, and all of that work keeps the
draft: it is cleared by the last step only, which cannot be refused. To write and to leave reach for
a file after that step and are not among these commands.
-/

set_option autoImplicit false

namespace HeaderBind

/-- Whether a command writes to files: the draft is finished before they are touched. -/
def DraftCommand.reachesFiles : DraftCommand → Bool
  | .write .. | .leave _ => true
  | _ => false

namespace Session

open Effect (Keeps of_bind_error bind_apply get_bind_apply keeps_bind keeps_get_bind keeps_modify
  keeps_pure keeps_throw)

/-- What a command works on: the draft, and the host with its files. -/
def workpiece (session : Session) : Draft × Host :=
  (session.draft, session.host)

/-! ### The commands with work to do -/

theorem keeps_workpiece_runProbe (answer : String → Except Error String) (source : String) :
    Keeps workpiece (runProbe answer source) := by
  refine keeps_bind (keeps_modify fun _ => rfl) fun _ => ?_
  cases answer source with
  | ok output => exact keeps_pure output
  | error error => exact keeps_throw error

/-- Resolving is looking, whatever comes of it. -/
theorem keeps_workpiece_resolve [Interpreter] (answer : String → Except Error String) :
    Keeps workpiece (perform answer .resolve) :=
  keeps_get_bind fun session => keeps_bind
    (Draft.keeps_resolve (keeps_workpiece_runProbe answer) session.draft) fun _ => keeps_pure _

/-- Finishing is refused before the draft is cleared. -/
theorem workpiece_of_refused_finish {answer : String → Except Error String}
    {session after : Session} {error : Error} (h : finish answer session = .error error after) :
    after.workpiece = session.workpiece := by
  rw [finish, get_bind_apply] at h
  rcases of_bind_error h with hrefused | ⟨made, middle, -, h⟩
  · have hkept := Draft.keeps_finish (keeps_workpiece_runProbe answer) session.draft session
    rw [hrefused] at hkept
    exact hkept
  · -- The draft is cleared when the text is there, and nothing is left to be refused.
    cases h

/-- An operation on the draft is refused before it has changed anything. -/
theorem workpiece_of_refused_onDraft {α : Type} {act : DraftAction α}
    (hatomic : DraftAction.Atomic act) {reply : α → DraftReply} {session after : Session}
    {error : Error}
    (h : (onDraft act >>= fun value => pure (reply value) : SessionAction DraftReply) session
      = .error error after) : after.workpiece = session.workpiece := by
  rw [onDraft_bind_apply hatomic] at h
  cases hrun : Draft.outcome act session.draft with
  | ok answered =>
      rw [hrun] at h
      cases h
  | error fault =>
      rw [hrun] at h
      cases h
      rfl

/-- A command that is refused leaves the draft and the host as they were. -/
theorem workpiece_of_refused [Interpreter] {answer : String → Except Error String}
    {command : DraftCommand} (hcommand : command.reachesFiles = false) {session after : Session}
    {error : Error}
    (h : perform answer command session = .error error after) :
    after.workpiece = session.workpiece := by
  cases command with
  | rename name => exact workpiece_of_refused_onDraft (Draft.rename_spec name).1 h
  | addInclude path isLocal =>
      exact workpiece_of_refused_onDraft (Draft.addInclude_spec path isLocal).1 h
  | setMode mode => cases h
  | setModeNamed name => exact workpiece_of_refused_onDraft (Draft.setModeNamed_spec name).1 h
  | addConstant source exposed =>
      exact workpiece_of_refused_onDraft (Draft.addConstant_spec source exposed).1 h
  | addStruct name members encoder decoder hasTail =>
      exact workpiece_of_refused_onDraft
        (Draft.addStruct_spec name members encoder decoder hasTail).1 h
  | showProbe => cases h
  | resolve =>
      have hkept := keeps_workpiece_resolve answer session
      rw [h] at hkept
      exact hkept
  | finish =>
      rcases of_bind_error h with hrefused | ⟨text, middle, -, h⟩
      · exact workpiece_of_refused_finish hrefused
      · cases h
  | write path mode => cases hcommand
  | leave failed => cases hcommand

/-! ### What comes later -/

/-- Sessions in parallel stay in parallel. -/
theorem Parallel.runAll [Interpreter] {history : List String}
    (answer : String → Except Error String) (commands : List DraftCommand) {session other : Session}
    (h : Parallel history session other) :
    Parallel history (Session.runAll answer commands session).2
      (Session.runAll answer commands other).2 := by
  rw [runAll_snd, runAll_snd]
  induction commands generalizing session other with
  | nil => exact h
  | cons command commands ih =>
      refine ih ?_
      have hmatched := related_perform answer command session other h
      simp only [after]
      generalize perform answer command session = result at hmatched ⊢
      generalize perform answer command other = result' at hmatched ⊢
      cases hmatched with
      | ok values states => exact states
      | error states => exact states

/-- A session and one that has run no probe program yet, the same otherwise. -/
theorem parallel_unprobed (session : Session) :
    Parallel session.probed session { session with probed := [] } :=
  ⟨rfl, ⟨rfl, rfl⟩, (List.append_nil _).symm⟩

/-- Whatever a command is refused for, the draft and the host are as they were, and later commands,
on whatever probe, answer as they would have, run the same probe programs and come to the same
draft and the same files. -/
theorem refused_perform [Interpreter] {answer : String → Except Error String}
    {command : DraftCommand} (hcommand : command.reachesFiles = false)
    {session refused : Session} {error : Error}
    (h : perform answer command session = .error error refused) :
    refused.draft = session.draft ∧ refused.host = session.host ∧
      (∃ programs, refused.probed = session.probed ++ programs) ∧
      ∀ (answer' : String → Except Error String) (later : List DraftCommand),
        transcript answer' later refused = transcript answer' later session ∧
          (runAll answer' later refused).2.draft = (runAll answer' later session).2.draft ∧
          Artifact.SameFiles (runAll answer' later refused).2.host
            (runAll answer' later session).2.host := by
  obtain ⟨hdraft, hhost⟩ := Prod.mk.inj (workpiece_of_refused hcommand h)
  have hprobed := probed_after answer command session
  rw [after, h] at hprobed
  refine ⟨hdraft, hhost, hprobed, fun answer' later => ?_⟩
  -- Without the programs that were run, the two sessions are one.
  have hone : { refused with probed := [] } = { session with probed := [] } := by
    rw [hdraft, hhost]
  have hrefused := parallel_unprobed refused
  have hsession := parallel_unprobed session
  rw [hone] at hrefused
  have hrefusedEnd := hrefused.runAll answer' later
  have hsessionEnd := hsession.runAll answer' later
  refine ⟨?_, hrefusedEnd.draft.trans hsessionEnd.draft.symm, ?_⟩
  · exact (transcript_eq_of_parallel answer' later hrefused).trans
      (transcript_eq_of_parallel answer' later hsession).symm
  · exact ⟨hrefusedEnd.files.1.trans hsessionEnd.files.1.symm,
      hrefusedEnd.files.2.trans hsessionEnd.files.2.symm⟩

/-- A session in which a constant and a structure wait. -/
def waitingSession : Session :=
  (runAll (fun _ => .ok "")
    [.rename "demo", .addInclude "point.h" true, .addConstant "LIMIT" none,
      .addStruct "struct point" [.named "x" "numeric", .named "y" "numeric"] none none false]
    (Draft.bareSession (Draft.empty none "demo" none))).2

/-- A probe that reports members on top of each other. -/
def overlapAnswer (_ : String) : Except Error String :=
  .ok "LIMIT=7\npoint=8,x@0+4s,y@2+4s\n"

/-- A module is refused at the very end, after its probe was run and its constant resolved: the
structure has no layout. Nothing of that is left. -/
theorem refused_perform_overlap :
    ∃ fault refused,
      perform overlapAnswer .finish waitingSession
        = .error (.configuration (.layout fault)) refused ∧
      refused.probed.length = 1 ∧ refused.draft = waitingSession.draft ∧
      transcript limitAnswer [.addConstant "point" none, .resolve, .finish] refused
        = transcript limitAnswer [.addConstant "point" none, .resolve, .finish]
            waitingSession := by
  have hrun : (match perform overlapAnswer .finish waitingSession with
      | .error (.configuration (.layout _)) refused => refused.probed.length == 1
      | _ => false) = true := by decide +kernel
  split at hrun
  · rename_i fault refused hrefused
    obtain ⟨hdraft, -, -, hlater⟩ := refused_perform (by rfl) hrefused
    exact ⟨fault, refused, hrefused, beq_iff_eq.mp hrun, hdraft,
      (hlater limitAnswer _).1⟩
  · cases hrun

end Session

end HeaderBind
