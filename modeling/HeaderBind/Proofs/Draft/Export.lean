import HeaderBind.Proofs.Draft.Section
import HeaderBind.Proofs.Module.Injective

/-!
# `HeaderBind.Proofs.Draft.Export`: which names a module lists

A draft has an export mode that commands switch, and every declaration keeps the mode that was in
force when it was made. The lists are written much later, from the modes that the declarations kept.
`listed_of_run` goes back to the history: what a module lists are the names of the declarations that
were accepted while a mode was in force, in the order in which they were made.

The history is the list of commands with what they came to, and `offered` reads it from the front,
with the mode in force at hand. It looks at no draft. The invariant of the run is that the names a
draft has under a mode are those that its history offers (`namesUnder_runAll`); one command adds the
names of the declaration that it makes to those under the mode in force, and nothing elsewhere
(`namesUnder_after`).

The three modes divide the names of a draft between them (`perm_namesUnder`), and by its book these
are pairwise distinct. So no list has a name twice, and no name is in two of them.
-/

set_option autoImplicit false

namespace HeaderBind

/-- Whether a command can clear the draft: it makes a module, or ends the work on the draft. -/
def DraftCommand.endsSection : DraftCommand → Bool
  | .finish | .write .. | .leave _ => true
  | _ => false

/-! ### The history of a run -/

namespace Session

/-- Commands with what they came to. -/
abbrev History := List (DraftCommand × Except Error DraftReply)

/-- The history of a run. -/
def history [Interpreter] (answer : String → Except Error String) (commands : List DraftCommand)
    (session : Session) : History :=
  commands.zip (runAll answer commands session).1

/-- The names that an accepted declaration offers. -/
def acceptedNames : Except Error DraftReply → List String
  | .ok (.declared d) => d.exportedNames
  | _ => []

/-- The mode in force behind a command: another one behind a switch that was accepted. -/
def modeBehind (mode : ExportMode) : DraftCommand × Except Error DraftReply → ExportMode
  | (.setMode chosen, .ok _) => chosen
  | (.setModeNamed name, .ok _) => (ExportMode.ofName name).toOption.getD mode
  | _ => mode

/-- The names of the declarations that were accepted while a mode was in force. The mode at hand is
the one in force in front of the history. -/
def offered (wanted : ExportMode) : (mode : ExportMode) → History → List String
  | _, [] => []
  | mode, step :: steps =>
    (if mode = wanted then acceptedNames step.2 else []) ++
      offered wanted (modeBehind mode step) steps

theorem history_cons [Interpreter] (answer : String → Except Error String) (command : DraftCommand)
    (commands : List DraftCommand) (session : Session) :
    history answer (command :: commands) session
      = (command, answered (perform answer command session)) ::
          history answer commands (session.after answer command) := by
  rw [history, history, runAll, after]
  cases perform answer command session <;> rfl

end Session

/-! ### The names under a mode -/

namespace Draft

/-- The names that the declarations made under a mode offer, in order. -/
def namesUnder (wanted : ExportMode) (draft : Draft) : List String :=
  (draft.declarations.filter fun d => d.mode == wanted).flatMap Declaration.exportedNames

/-- One more declaration has its names under its own mode. -/
theorem namesUnder_of_register {draft next : Draft} {d : Declaration}
    (h : draft.register d = .ok next) (wanted : ExportMode) :
    next.namesUnder wanted
      = draft.namesUnder wanted ++ if d.mode = wanted then d.exportedNames else [] := by
  obtain ⟨-, -, rfl⟩ := register_eq_ok_iff.mp h
  rw [namesUnder, namesUnder, List.filter_append, List.flatMap_append]
  by_cases hmode : d.mode = wanted <;> simp [hmode]

theorem mode_of_register {draft next : Draft} {d : Declaration}
    (h : draft.register d = .ok next) : next.mode = draft.mode := by
  obtain ⟨-, -, rfl⟩ := register_eq_ok_iff.mp h
  rfl

/-- The modes divide the names that a draft offers between them. -/
theorem perm_namesUnder (draft : Draft) :
    (draft.namesUnder .always ++ draft.namesUnder .onRequest ++ draft.namesUnder .hidden).Perm
      (draft.declarations.flatMap Declaration.exportedNames) := by
  simp only [namesUnder]
  refine List.perm_iff_count.mpr fun name => ?_
  induction draft.declarations with
  | nil => rfl
  | cons d declarations ih =>
      simp only [List.count_append] at ih ⊢
      -- The declaration adds to the names of its own mode on the left.
      cases hmode : d.mode <;>
        simp [hmode] <;> omega

end Draft

theorem Constant.mode_of_make {source : String} {exposed : Option String} {mode : ExportMode}
    {c : Constant} (h : Constant.make source exposed mode = .ok c) : c.mode = mode := by
  simp only [Constant.make] at h
  split at h
  · cases h
  · split at h
    · cases h
    · cases h
      rfl

/-! ### One command, and a run -/

namespace Session

open Effect (bind_apply get_bind_apply)

/-- What a command is about to change: the mode in force, and the names under each mode. -/
structure Follows (command : DraftCommand) (reply : Except Error DraftReply) (draft next : Draft) :
    Prop where
  mode : next.mode = modeBehind draft.mode (command, reply)
  names : ∀ wanted, next.namesUnder wanted
    = draft.namesUnder wanted ++ if draft.mode = wanted then acceptedNames reply else []

/-- A reply without a declaration goes with the declarations that were there. -/
theorem Follows.of_declarations {command : DraftCommand} {reply : Except Error DraftReply}
    {draft next : Draft} (hmode : next.mode = modeBehind draft.mode (command, reply))
    (hreply : acceptedNames reply = []) (h : next.declarations = draft.declarations) :
    Follows command reply draft next where
  mode := hmode
  names := fun wanted => by
    rw [hreply, ite_self, List.append_nil, Draft.namesUnder, Draft.namesUnder, h]

/-- A declaration that was registered has its names under the mode in force. -/
theorem Follows.of_register {command : DraftCommand} {d : Declaration} {draft next : Draft}
    (hcommand : modeBehind draft.mode (command, .ok (.declared d)) = draft.mode)
    (hmade : d.mode = draft.mode) (h : draft.register d = .ok next) :
    Follows command (.ok (.declared d)) draft next where
  mode := by rw [hcommand, Draft.mode_of_register h]
  names := fun wanted => by
    rw [Draft.namesUnder_of_register h, hmade]
    rfl

/-- A refused command leaves the mode in force. -/
theorem modeBehind_error (mode : ExportMode) (command : DraftCommand) (error : Error) :
    modeBehind mode (command, .error error) = mode := by
  cases command <;> rfl

/-- An operation on the draft: a refused one declares nothing, so an accepted one is all there is to
judge. -/
theorem follows_onDraft {α : Type} {act : DraftAction α} (h : DraftAction.Atomic act)
    {command : DraftCommand} (reply : α → DraftReply) (session : Session)
    (accepted : ∀ value next, Draft.outcome act session.draft = .ok (value, next) →
      Follows command (.ok (reply value)) session.draft next) :
    let run := (onDraft act >>= fun value => pure (reply value) : SessionAction DraftReply) session
    Follows command (answered run) session.draft (left run).draft := by
  rw [onDraft_bind_apply h]
  cases hrun : Draft.outcome act session.draft with
  | error fault => exact .of_declarations (modeBehind_error _ _ _).symm rfl rfl
  | ok made => exact accepted made.1 made.2 hrun

/-- The step: a command that does not end the section switches the mode, or adds the names of the
declaration that it makes to those under the mode in force, or does neither. -/
theorem follows_after [Interpreter] (answer : String → Except Error String) {command : DraftCommand}
    (hcommand : command.endsSection = false) (session : Session) :
    Follows command (answered (perform answer command session)) session.draft
      (session.after answer command).draft := by
  -- Only two commands declare anything. All others leave the declarations as they are.
  cases command with
  | rename name =>
      refine follows_onDraft (Draft.rename_spec name).1 (fun _ => .done) session
        fun _ _ hrun => ?_
      obtain ⟨-, -, rfl⟩ := Draft.rename_eq_ok_iff.mp (Draft.next_eq_ok hrun)
      exact .of_declarations rfl rfl rfl
  | addInclude path isLocal =>
      refine follows_onDraft (Draft.addInclude_spec path isLocal).1 .included session
        fun _ _ hrun => ?_
      obtain ⟨-, -, rfl⟩ := Draft.addInclude_eq_ok_iff.mp hrun
      exact .of_declarations rfl rfl rfl
  | setMode mode => exact .of_declarations rfl rfl rfl
  | setModeNamed name =>
      refine follows_onDraft (Draft.setModeNamed_spec name).1 (fun _ => .done) session
        fun _ _ hrun => ?_
      obtain ⟨mode, hmode, rfl⟩ := Draft.setMode_of_setModeNamed (Draft.next_eq_ok hrun)
      refine .of_declarations ?_ rfl rfl
      show mode = (ExportMode.ofName name).toOption.getD session.draft.mode
      rw [hmode]
      rfl
  | addConstant source exposed =>
      refine follows_onDraft (Draft.addConstant_spec source exposed).1
        (fun c => .declared (.constant c)) session fun _ _ hrun => ?_
      obtain ⟨hmade, hregistered⟩ := Draft.register_of_addConstant hrun
      exact .of_register rfl (Constant.mode_of_make hmade) hregistered
  | addStruct name members encoder decoder hasTail =>
      refine follows_onDraft (Draft.addStruct_spec name members encoder decoder hasTail).1
        (fun s => .declared (.struct s)) session fun _ _ hrun => ?_
      obtain ⟨hmade, hregistered⟩ := Draft.register_of_addStruct hrun
      obtain ⟨-, -, -, -, -, hmode, -⟩ := Struct.make_eq_ok_iff.mp hmade
      exact .of_register rfl hmode hregistered
  | showProbe => exact .of_declarations rfl rfl rfl
  | resolve =>
      have hkept := Draft.keeps_resolve (keeps_draft_runProbe answer) session.draft session
      simp only [after, perform, get_bind_apply]
      simp only [bind_apply]
      cases hresolve : session.draft.resolve (runProbe answer) session with
      | error error next =>
          rw [hresolve] at hkept
          exact .of_declarations (congrArg Draft.mode hkept) rfl (congrArg Draft.declarations hkept)
      | ok resolved next =>
          rw [hresolve] at hkept
          exact .of_declarations (congrArg Draft.mode hkept) rfl (congrArg Draft.declarations hkept)
  | finish => cases hcommand
  | write path mode => cases hcommand
  | leave failed => cases hcommand

/-- The run: the names under a mode are those at first and those that the history offers. -/
theorem namesUnder_runAll [Interpreter] (answer : String → Except Error String)
    {commands : List DraftCommand}
    (hcommands : ∀ command ∈ commands, command.endsSection = false) (session : Session)
    (wanted : ExportMode) :
    (runAll answer commands session).2.draft.namesUnder wanted
      = session.draft.namesUnder wanted ++
          offered wanted session.draft.mode (history answer commands session) := by
  rw [runAll_snd]
  -- Over the commands: what the first one adds stands in front of what the others do.
  induction commands generalizing session with
  | nil => exact (List.append_nil _).symm
  | cons command commands ih =>
      obtain ⟨hcommand, hcommands⟩ := List.forall_mem_cons.mp hcommands
      have hstep := follows_after answer hcommand session
      rw [List.foldl_cons, ih hcommands, history_cons, offered, hstep.names, hstep.mode,
        List.append_assoc]

/-! ### The module -/

/-- What a module lists under a mode are the names of its draft under the mode. -/
theorem exportedUnder_eq {draft : Draft} {entries : List Module.Entry}
    (h : entries.map Module.Entry.declaration = draft.declarations) (wanted : ExportMode) :
    Module.exportedUnder wanted entries = draft.namesUnder wanted := by
  rw [Draft.namesUnder, ← h, Module.exportedUnder, List.filter_map, List.flatMap_map]
  rfl

/-- The lines of a list of names, written out. -/
theorem exportBlock_eq (listName : String) (names : List String) :
    Module.exportBlock listName names
      = if names = [] then [] else "" :: "" :: s!"{listName} = [" ::
          names.map (fun name => s!"    \"{name}\",") ++ ["]"] := by
  cases names <;> rfl

/-- What is known of a module that was made: it is the text of entries for the declarations of the
draft. -/
theorem text_of_finish {answer : String → Except Error String} {session next : Session}
    {text : String} (h : finish answer session = .ok text next) :
    ∃ (module : String) (entries : List Module.Entry),
      entries.map Module.Entry.declaration = session.draft.declarations ∧
        text = Module.text module session.draft.label entries := by
  rw [finish, get_bind_apply] at h
  obtain ⟨⟨made, cleared⟩, middle, hfinish, h⟩ := Effect.of_bind_ok h
  cases h
  obtain ⟨module, resolved, -, hresolve, hrender, -⟩ := Draft.of_finish hfinish
  refine ⟨module, resolved.map Module.Entry.ofResolved, ?_, (Module.text_of_render hrender).symm⟩
  obtain ⟨output, hresolution⟩ := Draft.resolution_of_resolve hresolve
  rw [List.map_map, ← (Resolution.resolveAll_eq_ok_iff.mp hresolution).1]
  exact List.map_congr_left fun r _ => Module.declaration_ofResolved r

/-- Which names a module lists. Whatever was declared and refused in a section, the names that were
accepted under the three modes are pairwise distinct, and the text of the module lists those under
the first two, in order, each list where it is not empty and none anywhere else. -/
theorem listed_of_run [Interpreter] {answer : String → Except Error String} {name : Option String}
    {label : String} {outputPath : Option Path} {draft : Draft}
    (started : Draft.start name label outputPath = .ok draft) {host : Host}
    {commands : List DraftCommand}
    (hcommands : ∀ command ∈ commands, command.endsSection = false) {reply : DraftReply}
    {session : Session}
    (finished : perform answer .finish (runAll answer commands ⟨draft, host, []⟩).2
      = .ok reply session) :
    let made := history answer commands ⟨draft, host, []⟩
    let everyone := offered .always .onRequest made
    let asking := offered .onRequest .onRequest made
    (everyone ++ asking ++ offered .hidden .onRequest made).Nodup ∧
      ∃ module entries,
        entries.map Module.Entry.declaration
          = (runAll answer commands ⟨draft, host, []⟩).2.draft.declarations ∧
        reply = .text ("\n".intercalate
          (Module.titleLines module label ++
            Module.importLines (entries.any fun entry => !entry.isConstant) ++
            (if everyone = [] then [] else "" :: "" :: "__all__ = [" ::
              everyone.map (fun name => s!"    \"{name}\",") ++ ["]"]) ++
            (if asking = [] then [] else "" :: "" :: "__export_ok__ = [" ::
              asking.map (fun name => s!"    \"{name}\",") ++ ["]"]) ++
            Module.blocks false entries ++ Module.endLines module) ++ "\n") := by
  have hsetUp : SetUp label outputPath (runAll answer commands ⟨draft, host, []⟩).2.draft :=
    SetUp.runAll answer commands (SetUp.start started)
  have hreachable : Draft.Reachable (runAll answer commands ⟨draft, host, []⟩).2.draft :=
    Draft.Reachable.runAll answer commands (.new started)
  -- A new draft has no names yet, and is under the mode for names on request.
  have hnames : ∀ wanted, (runAll answer commands ⟨draft, host, []⟩).2.draft.namesUnder wanted
      = offered wanted .onRequest (history answer commands ⟨draft, host, []⟩) := by
    intro wanted
    rw [namesUnder_runAll answer hcommands, Draft.eq_empty_of_start started]
    rfl
  generalize (runAll answer commands ⟨draft, host, []⟩).2 = before at *
  obtain ⟨text, middle, hfinish, h⟩ := Effect.of_bind_ok finished
  cases h
  obtain ⟨module, entries, hdeclarations, rfl⟩ := text_of_finish hfinish
  refine ⟨?_, module, entries, hdeclarations, ?_⟩
  · rw [← hnames, ← hnames, ← hnames]
    exact (Draft.perm_namesUnder before.draft).nodup_iff.mpr
      hreachable.booked.exportedNames_nodup
  · rw [Module.text_eq_intercalate, Module.body, hsetUp.label, exportedUnder_eq hdeclarations,
      exportedUnder_eq hdeclarations, hnames, hnames, exportBlock_eq, exportBlock_eq]
    simp only [List.append_assoc]
    rfl

/-- A section with switches between its declarations, and with two commands that are refused: the
constant is there already, and no mode has that name. -/
def switchedSection : List DraftCommand :=
  [.rename "demo", .addConstant "LIMIT" none, .setMode .always, .addConstant "LIMIT" none,
    .addStruct "struct point" [.named "x" "numeric", .named "y" "numeric"] none none false,
    .setModeNamed "none", .addConstant "SECRET" none, .setModeNamed "some",
    .addConstant "HIDDEN" none, .setModeNamed "default", .addConstant "WIDTH" none]

/-- What its probe prints. -/
def switchedAnswer (_ : String) : Except Error String :=
  .ok "LIMIT=7\npoint=8,x@0+4s,y@4+4s\nSECRET=1\nHIDDEN=2\nWIDTH=3\n"

/-- The lists of the section above. -/
theorem listed_of_run_switched :
    ∃ draft reply session, Draft.start none "demo" none = .ok draft ∧
      perform switchedAnswer .finish
          (runAll switchedAnswer switchedSection (Draft.bareSession draft)).2 = .ok reply session ∧
      let made := history switchedAnswer switchedSection (Draft.bareSession draft)
      offered .always .onRequest made = ["encode_point", "decode_point", "WIDTH"] ∧
        offered .onRequest .onRequest made = ["LIMIT"] ∧
        offered .hidden .onRequest made = ["SECRET", "HIDDEN"] ∧
        (offered .always .onRequest made ++ offered .onRequest .onRequest made ++
          offered .hidden .onRequest made).Nodup := by
  have hstart : Draft.start none "demo" none = .ok (Draft.empty none "demo" none) := rfl
  have haccepted : (answered (perform switchedAnswer .finish (runAll switchedAnswer switchedSection
      (Draft.bareSession (Draft.empty none "demo" none))).2)).isOk = true := by decide +kernel
  cases hfinish : perform switchedAnswer .finish (runAll switchedAnswer switchedSection
      (Draft.bareSession (Draft.empty none "demo" none))).2 with
  | error error session =>
      rw [hfinish] at haccepted
      cases haccepted
  | ok reply session =>
      refine ⟨_, reply, session, hstart, hfinish, ?_, ?_, ?_, ?_⟩
      · decide +kernel
      · decide +kernel
      · decide +kernel
      · exact (listed_of_run hstart (by decide) hfinish).1

end Session

end HeaderBind
