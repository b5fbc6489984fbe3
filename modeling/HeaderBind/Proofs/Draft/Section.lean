import HeaderBind.Proofs.Artifact
import HeaderBind.Proofs.Draft.Names

/-!
# `HeaderBind.Proofs.Draft.Section`: sections do not leak into each other

One draft serves for several modules: each `finish` that is accepted ends a section, and the next
one is to be what it would be in a new draft. `transcript` is all that can be seen of a run, command
by command: what a command answers, and which probe programs are run for it.
`transcript_of_section` compares the run after a finished section with a run of its own, from a new
draft on a machine with the same files.

Two things carry it. A finished draft is the empty one of its name, label and place
(`cleared_of_finish`), so the two drafts are equal from the start; and a command looks at nothing
but the draft and the files (`related_perform`). `Parallel` is what two such sessions have in
common. The probe programs that were run before are not part of it, but they stay at the front of
the list, so what is added can be compared.
-/

set_option autoImplicit false

namespace HeaderBind.Session

open Effect (Related Matched bind_apply get_bind_apply related_bind related_get_bind related_modify
  related_pure related_throw)

/-! ### What can be seen of a run -/

/-- What a command came to, and the probe programs that were run for it. -/
structure Exchange where
  reply : Except Error DraftReply
  probed : List String

/-- The value or the error of a result. -/
def answered {α : Type} : EStateM.Result Error Session α → Except Error α
  | .ok value _ => .ok value
  | .error error _ => .error error

/-- Performs commands one after the other, whatever becomes of each: what can be seen of it. -/
def transcript [Interpreter] (answer : String → Except Error String) :
    List DraftCommand → Session → List Exchange
  | [], _ => []
  | command :: commands, session =>
    let next := session.after answer command
    ⟨answered (perform answer command session), next.probed.drop session.probed.length⟩ ::
      transcript answer commands next

/-- The replies in a transcript are those of the run. -/
theorem map_reply_transcript [Interpreter] (answer : String → Except Error String)
    (commands : List DraftCommand) (session : Session) :
    (transcript answer commands session).map Exchange.reply
      = (runAll answer commands session).1 := by
  induction commands generalizing session with
  | nil => rfl
  | cons command commands ih =>
      rw [transcript, List.map_cons, ih, runAll, after]
      cases perform answer command session <;> rfl

/-! ### Two sessions in parallel -/

/-- Sessions with one draft and the same files. The first one has run some probe programs before
those that both have run. -/
structure Parallel (history : List String) (session other : Session) : Prop where
  draft : session.draft = other.draft
  files : Artifact.SameFiles session.host other.host
  probed : session.probed = history ++ other.probed

variable {history : List String}

/-- What is done to the draft does the same to the same draft. -/
theorem related_onDraft {α : Type} (act : DraftAction α) :
    Related (Parallel history) Eq (onDraft act) (onDraft act) := by
  intro session other h
  unfold onDraft
  rw [← h.draft]
  cases act session.draft with
  | ok value next => exact .ok rfl ⟨rfl, h.files, h.probed⟩
  | error fault next => exact .error ⟨rfl, h.files, h.probed⟩

/-- Both sessions note the program behind those that were noted before. -/
theorem related_runProbe (answer : String → Except Error String) (source : String) :
    Related (Parallel history) Eq (runProbe answer source) (runProbe answer source) := by
  refine related_bind (V := Eq) (related_modify fun session other h => ?_) fun _ _ _ => ?_
  · refine ⟨h.draft, h.files, ?_⟩
    show session.probed ++ [source] = history ++ (other.probed ++ [source])
    rw [h.probed, List.append_assoc]
  · cases answer source with
    | ok output => exact related_pure rfl
    | error error => exact related_throw error

theorem related_finish (answer : String → Except Error String) :
    Related (Parallel history) Eq (finish answer) (finish answer) := by
  refine related_get_bind fun session other h => ?_
  rw [← h.draft]
  refine related_bind (Draft.related_finish (related_runProbe answer) session.draft) ?_
  rintro ⟨text, next⟩ _ rfl
  refine related_bind (V := Eq) (related_modify fun session other h => ?_)
    fun _ _ _ => related_pure rfl
  exact ⟨rfl, h.files, h.probed⟩

/-- What is done on the host does the same to the same files. -/
theorem related_onHost {α : Type} {act : Action α}
    (hact : Related Artifact.SameFiles Eq act act) :
    Related (Parallel history) Eq (onHost act) (onHost act) := by
  intro session other h
  have hmatched := hact session.host other.host h.files
  unfold onHost
  generalize act session.host = result at hmatched ⊢
  generalize act other.host = result' at hmatched ⊢
  cases hmatched with
  | ok values states => exact .ok values ⟨h.draft, states, h.probed⟩
  | error states => exact .error ⟨h.draft, states, h.probed⟩

theorem related_write [Interpreter] (answer : String → Except Error String) (path : Option Path)
    (mode : WriteMode) :
    Related (Parallel history) Eq (write answer path mode) (write answer path mode) := by
  refine related_get_bind fun session other h => ?_
  rw [← h.draft]
  cases path <|> session.draft.outputPath with
  | none => exact related_throw _
  | some path =>
      refine related_bind (related_finish answer) ?_
      rintro text _ rfl
      exact related_onHost (Artifact.related_write path text mode)

theorem related_leave [Interpreter] (answer : String → Except Error String) (failed : Bool) :
    Related (Parallel history) Eq (leave answer failed) (leave answer failed) := by
  refine related_get_bind fun session other h => ?_
  rw [← h.draft]
  split
  · exact related_pure rfl
  · cases session.draft.outputPath with
    | none => exact related_finish answer
    | some path =>
        refine related_bind (V := Eq) ?_ fun _ _ _ => related_pure rfl
        exact related_bind (related_write answer (some path) .apply) fun _ _ _ => related_pure rfl

/-- An operation on the drafts at hand, which are one draft. -/
theorem related_onDraft_bind {α : Type} (act : DraftAction α) (reply : α → DraftReply) :
    Related (Parallel history) Eq
      (onDraft act >>= fun value => pure (reply value))
      (onDraft act >>= fun value => pure (reply value)) := by
  refine related_bind (related_onDraft act) ?_
  rintro value _ rfl
  exact related_pure rfl

/-- The step: a command looks at nothing but the draft and the files. -/
theorem related_perform [Interpreter] (answer : String → Except Error String)
    (command : DraftCommand) :
    Related (Parallel history) Eq (perform answer command) (perform answer command) := by
  cases command with
  | rename name => exact related_onDraft_bind (DraftAction.rename name) fun _ => .done
  | addInclude path isLocal =>
      exact related_onDraft_bind (DraftAction.addInclude path isLocal) .included
  | setMode mode => exact related_onDraft_bind (DraftAction.setMode mode) fun _ => .done
  | setModeNamed name => exact related_onDraft_bind (DraftAction.setModeNamed name) fun _ => .done
  | addConstant source exposed =>
      exact related_onDraft_bind (DraftAction.addConstant source exposed)
        fun c => .declared (.constant c)
  | addStruct name members encoder decoder hasTail =>
      exact related_onDraft_bind (DraftAction.addStruct name members encoder decoder hasTail)
        fun s => .declared (.struct s)
  | showProbe =>
      refine related_get_bind fun session other h => ?_
      rw [← h.draft]
      exact related_pure rfl
  | resolve =>
      refine related_get_bind fun session other h => ?_
      rw [← h.draft]
      refine related_bind (Draft.related_resolve (related_runProbe answer) session.draft) ?_
      rintro resolved _ rfl
      exact related_pure rfl
  | finish =>
      refine related_bind (related_finish answer) ?_
      rintro text _ rfl
      exact related_pure rfl
  | write path mode =>
      refine related_bind (related_write answer (path.map Path.ofString) mode) ?_
      rintro ⟨status, difference⟩ _ rfl
      exact related_pure rfl
  | leave failed =>
      refine related_bind (related_leave answer failed) ?_
      rintro content _ rfl
      exact related_pure rfl

/-- The run: nothing that can be seen tells sessions in parallel apart. -/
theorem transcript_eq_of_parallel [Interpreter] (answer : String → Except Error String)
    (commands : List DraftCommand) {session other : Session}
    (h : Parallel history session other) :
    transcript answer commands session = transcript answer commands other := by
  induction commands generalizing session other with
  | nil => rfl
  | cons command commands ih =>
      -- The programs in front of the new ones are dropped on both sides.
      have hadded : ∀ {next next' : Session}, Parallel history next next' →
          next.probed.drop session.probed.length = next'.probed.drop other.probed.length := by
        intro next next' hnext
        rw [hnext.probed, h.probed, List.length_append, ← List.drop_drop, List.drop_left]
      have hmatched := related_perform answer command session other h
      simp only [transcript, after]
      generalize perform answer command session = result at hmatched ⊢
      generalize perform answer command other = result' at hmatched ⊢
      cases hmatched with
      | ok values states => simp only [left, answered, values, hadded states, ih states]
      | error states => simp only [left, answered, hadded states, ih states]

/-- What was noted stays noted: the programs that a transcript shows for a command are those that
were run for it. -/
theorem probed_after [Interpreter] (answer : String → Except Error String) (command : DraftCommand)
    (session : Session) :
    ∃ programs, (session.after answer command).probed = session.probed ++ programs := by
  -- A session that has not run any program yet shows what is added.
  have hparallel : Parallel session.probed session { session with probed := [] } :=
    ⟨rfl, ⟨rfl, rfl⟩, (List.append_nil _).symm⟩
  have hmatched := related_perform answer command _ _ hparallel
  rw [after]
  generalize perform answer command session = result at hmatched ⊢
  generalize perform answer command { session with probed := [] } = result' at hmatched
  cases hmatched with
  | ok values states => exact ⟨_, states.probed⟩
  | error states => exact ⟨_, states.probed⟩

/-! ### The end of a section -/

/-- Running a probe program notes it and answers what it prints. -/
theorem runProbe_apply (answer : String → Except Error String) (source : String)
    (session : Session) :
    runProbe answer source session
      = match answer source with
        | .ok output => .ok output { session with probed := session.probed ++ [source] }
        | .error error => .error error { session with probed := session.probed ++ [source] } := by
  show (match answer source with
    | .ok output => pure output
    | .error error => throw error : SessionAction String)
      { session with probed := session.probed ++ [source] } = _
  cases answer source <;> rfl

theorem session_of_lift {α ε : Type} {wrap : ε → Error} {result : Except ε α} {value : α}
    {session next : Session}
    (h : (Draft.lift wrap result : SessionAction α) session = .ok value next) :
    next = session := by
  cases result with
  | ok value => cases h; rfl
  | error fault => cases h

/-- Resolving runs the one probe program of the draft, if there is anything to resolve. -/
theorem probed_of_resolve {answer : String → Except Error String} {draft : Draft}
    {session next : Session} {resolved : List Resolved}
    (h : draft.resolve (runProbe answer) session = .ok resolved next) :
    next.probed = session.probed ++ if draft.isPending then [draft.probeSource] else [] := by
  unfold Draft.resolve at h
  split at h
  · rename_i hpending
    rw [if_pos hpending]
    rw [bind_apply, runProbe_apply] at h
    cases hanswer : answer draft.probeSource with
    | ok output =>
        rw [hanswer] at h
        rw [session_of_lift h]
    | error error =>
        rw [hanswer] at h
        cases h
  · rename_i hpending
    rw [if_neg hpending, List.append_nil]
    cases h
    rfl

/-- What is known when the text of a module is answered: the draft has a name and is cleared, and
its probe program was run once if declarations waited and not at all if none did. -/
theorem of_finish {answer : String → Except Error String} {session next : Session} {text : String}
    (h : finish answer session = .ok text next) :
    (∃ module, session.draft.name = some module) ∧ next.draft = session.draft.cleared ∧
      next.probed = session.probed ++
        if session.draft.isPending then [session.draft.probeSource] else [] := by
  rw [finish, get_bind_apply, bind_apply] at h
  cases hfinish : session.draft.finish (runProbe answer) session with
  | error error middle =>
      rw [hfinish] at h
      cases h
  | ok answered middle =>
      obtain ⟨content, cleared⟩ := answered
      rw [hfinish] at h
      cases h
      obtain ⟨module, resolved, hname, hresolve, -, hcleared⟩ := Draft.of_finish hfinish
      have hprobed := probed_of_resolve hresolve
      exact ⟨⟨module, hname⟩, hcleared, hprobed⟩

/-! ### What a draft keeps in use -/

/-- What a draft keeps for as long as it is in use: its label and its place, and that its name is
the name of a module. -/
structure SetUp (label : String) (outputPath : Option Path) (draft : Draft) : Prop where
  label : draft.label = label
  outputPath : draft.outputPath = outputPath
  isModuleName : ∀ module, draft.name = some module → Name.isModuleName module = true

namespace SetUp

variable {label : String} {outputPath : Option Path} {draft next : Draft}

theorem rename {name : String} (h : SetUp label outputPath draft)
    (hrename : draft.rename name = .ok next) : SetUp label outputPath next := by
  obtain ⟨-, hname, rfl⟩ := Draft.rename_eq_ok_iff.mp hrename
  refine ⟨h.label, h.outputPath, fun module hmodule => ?_⟩
  cases hmodule
  exact hname

theorem start {name : Option String} (h : Draft.start name label outputPath = .ok draft) :
    SetUp label outputPath draft := by
  have hempty : SetUp label outputPath (Draft.empty none label outputPath) :=
    ⟨rfl, rfl, fun _ hmodule => nomatch hmodule⟩
  cases name with
  | none =>
      cases h
      exact hempty
  | some name => exact hempty.rename h

theorem register {d : Declaration} (h : SetUp label outputPath draft)
    (hregister : draft.register d = .ok next) : SetUp label outputPath next := by
  obtain ⟨-, -, rfl⟩ := Draft.register_eq_ok_iff.mp hregister
  exact ⟨h.label, h.outputPath, h.isModuleName⟩

theorem step (hstep : Draft.Step draft next) (h : SetUp label outputPath draft) :
    SetUp label outputPath next := by
  cases hstep with
  | stay => exact h
  | rename accepted => exact h.rename accepted
  | addInclude accepted =>
      obtain ⟨-, -, rfl⟩ := Draft.addInclude_eq_ok_iff.mp accepted
      exact ⟨h.label, h.outputPath, h.isModuleName⟩
  | setMode mode => exact ⟨h.label, h.outputPath, h.isModuleName⟩
  | constant made registered => exact h.register registered
  | struct made registered => exact h.register registered
  | clear => exact ⟨h.label, h.outputPath, h.isModuleName⟩

theorem runAll [Interpreter] (answer : String → Except Error String) (commands : List DraftCommand)
    {session : Session} (h : SetUp label outputPath session.draft) :
    SetUp label outputPath (Session.runAll answer commands session).2.draft := by
  rw [runAll_snd]
  induction commands generalizing session with
  | nil => exact h
  | cons command commands ih => exact ih (h.step (step_after session answer command))

end SetUp

/-- A cleared draft is a new one of its name. -/
theorem start_of_cleared {label : String} {outputPath : Option Path} {draft : Draft}
    {module : String} (h : SetUp label outputPath draft) (hname : draft.name = some module) :
    Draft.start (some module) label outputPath = .ok draft.cleared := by
  have hmodule := h.isModuleName module hname
  have hnothing : (Draft.empty none label outputPath).isPending = false := rfl
  show (Draft.empty none label outputPath).rename module = _
  refine Draft.rename_eq_ok_iff.mpr ⟨hnothing, hmodule, ?_⟩
  rw [Draft.cleared, hname, h.label, h.outputPath]
  rfl

/-! ### Sections -/

/-- What comes after a finished section is what would come in a new draft of the same name, label
and place, on any machine with the same files: every command answers alike and hands the same probe
programs over. And a section that is finished runs one probe program if declarations wait, and none
otherwise. -/
theorem transcript_of_section [Interpreter] {answer : String → Except Error String}
    {name : Option String} {label : String} {outputPath : Option Path} {draft : Draft}
    (started : Draft.start name label outputPath = .ok draft) {host : Host}
    {earlier : List DraftCommand} {reply : DraftReply} {session : Session}
    (finished : perform answer .finish (runAll answer earlier ⟨draft, host, []⟩).2
      = .ok reply session) :
    (∃ module fresh, session.draft.name = some module ∧
      Draft.start (some module) label outputPath = .ok fresh ∧
      ∀ (other : Host), Artifact.SameFiles session.host other →
        ∀ later, transcript answer later session = transcript answer later ⟨fresh, other, []⟩) ∧
      ∀ {before after : Session} {text : String}, finish answer before = .ok text after →
        after.probed = before.probed ++
          if before.draft.isPending then [before.draft.probeSource] else [] := by
  refine ⟨?_, fun hfinish => (of_finish hfinish).2.2⟩
  have hsetUp : SetUp label outputPath (runAll answer earlier ⟨draft, host, []⟩).2.draft :=
    SetUp.runAll answer earlier (SetUp.start started)
  generalize (runAll answer earlier ⟨draft, host, []⟩).2 = before at finished hsetUp
  -- The command answers what finishing answers.
  have hfinish : ∃ text, finish answer before = .ok text session := by
    have hrun : (finish answer >>= fun text => pure (.text text) : SessionAction DraftReply) before
        = .ok reply session := finished
    rw [bind_apply] at hrun
    cases hfinish : finish answer before with
    | ok text after =>
        rw [hfinish] at hrun
        cases hrun
        exact ⟨text, rfl⟩
    | error error after =>
        rw [hfinish] at hrun
        cases hrun
  obtain ⟨text, hfinish⟩ := hfinish
  obtain ⟨⟨module, hname⟩, hcleared, -⟩ := of_finish hfinish
  refine ⟨module, before.draft.cleared, ?_, start_of_cleared hsetUp hname, ?_⟩
  · rw [hcleared]
    exact hname
  · intro other hfiles later
    exact transcript_eq_of_parallel answer later
      ⟨hcleared, hfiles, (List.append_nil session.probed).symm⟩

/-- A probe program that prints the constant of the section below. -/
def limitAnswer (_ : String) : Except Error String :=
  .ok "LIMIT=7\n"

/-- A section with a name, a header, a mode and a constant. -/
def limitSection : List DraftCommand :=
  [.rename "demo", .addInclude "limits.h" false, .setModeNamed "default", .addConstant "LIMIT" none]

/-- The constant of a finished section can be declared again, and nothing shows that it was there
before. -/
theorem transcript_of_section_limit :
    ∃ host reply session module fresh, Draft.start none "demo" none
        = .ok (Draft.empty none "demo" none) ∧
      perform limitAnswer .finish
          (runAll limitAnswer limitSection ⟨Draft.empty none "demo" none, host, []⟩).2
        = .ok reply session ∧
      Draft.start (some module) "demo" none = .ok fresh ∧
      transcript limitAnswer [.addConstant "LIMIT" none, .finish] session
        = transcript limitAnswer [.addConstant "LIMIT" none, .finish]
            ⟨fresh, session.host, []⟩ := by
  have hstart : Draft.start none "demo" none = .ok (Draft.empty none "demo" none) := rfl
  have haccepted : (answered (perform limitAnswer .finish (runAll limitAnswer limitSection
      (Draft.bareSession (Draft.empty none "demo" none))).2)).isOk = true := by decide +kernel
  cases hfinish : perform limitAnswer .finish (runAll limitAnswer limitSection
      (Draft.bareSession (Draft.empty none "demo" none))).2 with
  | error error session =>
      rw [hfinish] at haccepted
      cases haccepted
  | ok reply session =>
      obtain ⟨⟨module, fresh, -, hfresh, hsame⟩, -⟩ := transcript_of_section hstart hfinish
      exact ⟨_, reply, session, module, fresh, hstart, hfinish, hfresh,
        hsame session.host ⟨rfl, rfl⟩ _⟩

end HeaderBind.Session
