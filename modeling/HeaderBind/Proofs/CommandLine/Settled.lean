import HeaderBind.Proofs.CommandLine.Preview
import HeaderBind.Proofs.Module.ReadBack
import HeaderBind.Proofs.Rerun

/-!
# `HeaderBind.Proofs.CommandLine.Settled`: what was generated is up to date

After a run over targets that returned, a run that checks is to find every file unchanged. That is
so (`settled_runGenerate`) where every target has a file of its own, which is not the configuration
either, and where no target brings a carriage return into its module. The second run starts from the
files that the first one left behind, with the same answers of processes to come, and finds a
compiler; everything else about its host is open.

What carries the proof is that a file, once brought up to date, is not touched again: the targets
behind it write to other files (`read_of_mapM`). So at the end each file holds the module of its
target, and the induction over the targets takes the two runs side by side (`mapM_again`): the
toolchain says what it said, so the module is the one that the file holds.

Nothing keeps two targets from having one file. The one behind then takes the place of the one in
front, and if their modules differ, a run that checks finds the one in front out of date
(`outdated_of_shared`). `drift_oneFile` is such a configuration.
-/

set_option autoImplicit false

namespace HeaderBind.CommandLine

open Effect Generation

/-- The outcome of a target whose file is found to hold its module. -/
def settled (outcome : Outcome) : Outcome :=
  { outcome with status := .unchanged, difference := "" }

/-- The output paths of targets, of those that have one. -/
def outputs (config : Json) (root : Path) (workingDirectory : Location) (output : Option String)
    (names : List String) : List Path :=
  names.filterMap fun name => (outputOf config root workingDirectory name output).toOption

variable {config : Json} {root : Path} {options : GenerateOptions} {names : List String}
  {start host other after : Host}

section Outputs

variable {workingDirectory : Location} {output : Option String} {name : String} {path : Path}

theorem outputs_cons (h : outputOf config root workingDirectory name output = .ok path) :
    outputs config root workingDirectory output (name :: names)
      = path :: outputs config root workingDirectory output names := by
  rw [outputs, List.filterMap_cons, h]
  rfl

theorem mem_outputs (hname : name ∈ names)
    (h : outputOf config root workingDirectory name output = .ok path) :
    path ∈ outputs config root workingDirectory output names :=
  List.mem_filterMap.mpr ⟨name, hname, by rw [h]; rfl⟩

end Outputs

/-! ### What a target leaves behind -/

/-- What is known of a target that was generated to its file: the file is read as the text of its
module. -/
structure Handled [Interpreter] (config : Json) (root : Path) (output : Option String)
    (name : String) (host after : Host) (outcome : Outcome) (path : Path) (text : String)
    (probed : Host) : Prop where
  led : outputOf config root host.workingDirectory name output = .ok path
  made : moduleOf config root name host = .ok (outcome.module, text) probed
  shown : settled outcome = ⟨name, outcome.module, path, .unchanged, ""⟩
  reads : ∃ content, after.readBytes path = .ok content ∧ decodeText content = .ok text
  admitted : FileTree.Admitted path
  answers : after.answers = probed.answers
  directory : after.workingDirectory = host.workingDirectory
  closed : after.tree.Closed

/-- The text of a module that was made has no carriage return, if its target lacks them. -/
theorem lacks_return_of_moduleOf [Interpreter] (hcheck : Config.check config = .ok ())
    {name module text : String} (hlacks : Config.LacksReturns config name)
    (h : moduleOf config root name host = .ok (module, text) after) : Lacks '\r' text := by
  -- Down to the draft that was finished: its text is that of the module.
  obtain ⟨⟨draft, settings⟩, middle, hprepare, h⟩ := of_bind_ok h
  obtain ⟨⟨⟨made, next⟩, commands⟩, last, honHost, h⟩ := of_bind_ok h
  cases h
  obtain ⟨bench, hfinish⟩ := Toolchain.of_onHost honHost
  obtain ⟨target, first, -, hprepare⟩ := of_bind_ok hprepare
  rw [get_bind_apply] at hprepare
  obtain ⟨found, second, -, hprepare⟩ := of_bind_ok hprepare
  obtain ⟨replayed, third, hreplayed, hprepare⟩ := of_bind_ok hprepare
  cases hprepare
  exact Draft.lacks_return_of_finish hcheck hlacks (Action.of_ofExcept hreplayed).1 hfinish

/-- A target that was generated and reported on leaves its module in its file. -/
theorem handled_of_handle [Interpreter]
    (hmode : WriteMode.ofSwitches options.check options.dryRun = .apply)
    (hcheck : Config.check config = .ok ()) (hroot : root.anchor = .root)
    (hclosed : host.tree.Closed) {name : String} (hlacks : Config.LacksReturns config name)
    {outcome : Outcome} (h : handle config root options name host = .ok outcome after) :
    ∃ path text probed,
      Handled config root options.output name host after outcome path text probed := by
  obtain ⟨handled, hgenerate, rfl⟩ := generate_of_handle h
  rw [hmode] at hgenerate
  obtain ⟨path, module, text, status, difference, probed, hled, hmade, hwrite, rfl⟩ :=
    of_generate hgenerate
  obtain ⟨hprobedTree, hprobedDirectory⟩ := files_of_moduleOf hmade
  obtain ⟨hanswers, hdirectory⟩ := Artifact.rest_of_write hwrite
  have hresolved := isResolved_of_outputOf hroot hled
  have hbrought := Artifact.broughtUp_write (hprobedTree ▸ hclosed) hresolved
    (text_ne_empty hmade)
  rw [hwrite] at hbrought
  cases hbrought with
  | done holds closed =>
      -- What was written is read again, and what was found unchanged is read as it was.
      have hreads : ∃ content, handled.readBytes path = .ok content ∧
          decodeText content = .ok text := by
        cases holds with
        | unchanged read same => exact ⟨_, read, same⟩
        | updated read =>
            exact ⟨_, read, decodeText_encode (lacks_return_of_moduleOf hcheck hlacks hmade)⟩
      obtain ⟨content, hread, hdecode⟩ := hreads
      exact ⟨path, text, probed, hled, hmade, rfl, ⟨content, hread, hdecode⟩,
        FileTree.admitted_of_read hresolved.anchor hresolved.plain hread,
        hanswers, hdirectory.trans hprobedDirectory, closed⟩

/-! ### Other files -/

/-- A file is read as before when a target with another file was generated. -/
theorem read_of_handle [Interpreter]
    (hmode : WriteMode.ofSwitches options.check options.dryRun = .apply)
    (hroot : root.anchor = .root) (hclosed : host.tree.Closed) {name : String} {outcome : Outcome}
    (h : handle config root options name host = .ok outcome after) {path : Path}
    {content : ByteArray} (hpath : FileTree.Admitted path)
    (hne : outputOf config root host.workingDirectory name options.output ≠ .ok path)
    (hread : host.readBytes path = .ok content) :
    after.readBytes path = .ok content ∧ after.workingDirectory = host.workingDirectory := by
  obtain ⟨handled, hgenerate, rfl⟩ := generate_of_handle h
  rw [hmode] at hgenerate
  obtain ⟨own, module, text, status, difference, probed, hled, hmade, hwrite, -⟩ :=
    of_generate hgenerate
  obtain ⟨hprobedTree, hprobedDirectory⟩ := files_of_moduleOf hmade
  obtain ⟨-, hdirectory⟩ := Artifact.rest_of_write hwrite
  -- The probe leaves all files alone, and what is written then is another file.
  have hreadProbed : probed.readBytes path = .ok content := by
    rw [Host.readBytes, hprobedTree, hprobedDirectory]
    exact hread
  have hreadHandled : handled.readBytes path = .ok content :=
    Artifact.read_of_write hwrite (hprobedTree ▸ hclosed) (isResolved_of_outputOf hroot hled)
      hpath (fun heq => hne (heq ▸ hled)) hreadProbed
  exact ⟨hreadHandled, hdirectory.trans hprobedDirectory⟩

/-- A file is read as before when targets with other files were generated. -/
theorem read_of_mapM [Interpreter]
    (hmode : WriteMode.ofSwitches options.check options.dryRun = .apply)
    (hroot : root.anchor = .root) (hclosed : host.tree.Closed) {outcomes : List Outcome}
    (h : names.mapM (handle config root options) host = .ok outcomes after) {path : Path}
    {content : ByteArray} (hpath : FileTree.Admitted path)
    (hne : ∀ name ∈ names,
      outputOf config root host.workingDirectory name options.output ≠ .ok path)
    (hread : host.readBytes path = .ok content) :
    after.readBytes path = .ok content ∧ after.workingDirectory = host.workingDirectory := by
  -- The tree stays one along the way, which is what every single target needs.
  have hkept : after.tree.Closed ∧ after.readBytes path = .ok content ∧
      after.workingDirectory = host.workingDirectory := by
    refine mapM_preserves (P := fun host' => host'.tree.Closed ∧
      host'.readBytes path = .ok content ∧ host'.workingDirectory = host.workingDirectory)
      ?_ h ⟨hclosed, hread, rfl⟩
    rintro name hname before outcome next ⟨hbefore, hreadBefore, hdirectory⟩ hhandle
    have hclosedNext : next.tree.Closed :=
      closed_of_handle hmode hroot hhandle hbefore
    obtain ⟨hreadNext, hdirectoryNext⟩ := read_of_handle hmode hroot hbefore hhandle hpath
      (hdirectory ▸ hne name hname) hreadBefore
    exact ⟨hclosedNext, hreadNext, hdirectoryNext.trans hdirectory⟩
  exact hkept.2

/-! ### The two runs -/

section Again

variable [Interpreter] {name : String} {outcome : Outcome} {path : Path} {text : String}
  {probed : Host}

/-- In a second run a target has the module of the first one, and what comes of it is what comes of
its file. -/
theorem handle_checked {status : ArtifactStatus} {difference : String}
    (h : Handled config root options.output name host after outcome path text probed)
    (hrepeats : start.Repeats host other)
    (hfinds : ∀ settings, toolchainOf config root start.workingDirectory name = .ok settings →
      Toolchain.FindsCompiler settings start)
    (hwrite : ∀ again, Artifact.SameFiles again start →
      Artifact.write path text .verify again = .ok (status, difference) again) (dryRun : Bool) :
    ∃ next, handle config root (options.checking dryRun) name other
        = .ok ⟨name, outcome.module, path, status, difference⟩ next ∧
      start.Repeats after next := by
  obtain ⟨_, probed', hmade, rfl, hprobed⟩ :=
    follows_moduleOf hfinds host other hrepeats _ probed h.made
  have hled : outputOf config root other.workingDirectory name options.output = .ok path := by
    rw [hrepeats.sameDirectory]
    exact h.led
  have hgenerate := generate_of_write hled hmade
    (hwrite probed' ⟨hprobed.view.tree, hprobed.view.workingDirectory⟩)
  refine ⟨_, handle_of_generate hgenerate, ?_⟩
  exact Host.Repeats.printing ⟨hprobed.answers.trans h.answers.symm,
    h.directory.trans hrepeats.directory, hprobed.rest⟩ _

/-- A target whose file still holds its module is found unchanged in a second run. -/
theorem handle_again
    (h : Handled config root options.output name host after outcome path text probed)
    (hrepeats : start.Repeats host other)
    (hfinds : ∀ settings, toolchainOf config root start.workingDirectory name = .ok settings →
      Toolchain.FindsCompiler settings start)
    (hcurrent : start.tree.currentText start.workingDirectory path = .ok text) (dryRun : Bool) :
    ∃ next, handle config root (options.checking dryRun) name other
        = .ok (settled outcome) next ∧ start.Repeats after next := by
  rw [h.shown]
  refine handle_checked h hrepeats hfinds (fun again hsame => Artifact.write_of_eq ?_) dryRun
  rw [hsame.1, hsame.2]
  exact hcurrent

/-- A target whose file holds another text by then is found out of date. -/
theorem handle_outdated {held : String}
    (h : Handled config root options.output name host after outcome path text probed)
    (hrepeats : start.Repeats host other)
    (hfinds : ∀ settings, toolchainOf config root start.workingDirectory name = .ok settings →
      Toolchain.FindsCompiler settings start)
    (hcurrent : start.tree.currentText start.workingDirectory path = .ok held)
    (hne : held ≠ text) (dryRun : Bool) :
    ∃ next, handle config root (options.checking dryRun) name other
        = .ok ⟨name, outcome.module, path, .drift, Artifact.difference path held text⟩ next ∧
      start.Repeats after next := by
  refine handle_checked h hrepeats hfinds (fun again hsame => ?_) dryRun
  refine Artifact.write_of_ne (by decide) ?_ hne
  rw [hsame.1, hsame.2]
  exact hcurrent

end Again

/-- Targets with files of their own, taken side by side: a run that returned, and a second one that
starts from the files that it left behind. -/
theorem mapM_again [Interpreter]
    (hmode : WriteMode.ofSwitches options.check options.dryRun = .apply)
    (hcheck : Config.check config = .ok ()) (hroot : root.anchor = .root)
    (hclosed : host.tree.Closed) {outcomes : List Outcome}
    (h : names.mapM (handle config root options) host = .ok outcomes after)
    (hrepeats : start.Repeats host other) (htree : start.tree = after.tree)
    (hlacks : ∀ name ∈ names, Config.LacksReturns config name)
    (hapart : (outputs config root start.workingDirectory options.output names).Nodup)
    (hfinds : ∀ name ∈ names, ∀ settings,
      toolchainOf config root start.workingDirectory name = .ok settings →
        Toolchain.FindsCompiler settings start) (dryRun : Bool) :
    ∃ last, names.mapM (handle config root (options.checking dryRun)) other
        = .ok (outcomes.map settled) last ∧ outcomes.map Outcome.target = names := by
  -- Over the targets. Where the second run began stays fixed, and so do the files of the end.
  induction names generalizing host other outcomes with
  | nil =>
      cases h
      exact ⟨other, rfl, rfl⟩
  | cons name names ih =>
      obtain ⟨hlacksFirst, hlacksRest⟩ := List.forall_mem_cons.mp hlacks
      obtain ⟨hfindsFirst, hfindsRest⟩ := List.forall_mem_cons.mp hfinds
      rw [List.mapM_cons] at h
      obtain ⟨outcome, middle, hhandle, h⟩ := of_bind_ok h
      obtain ⟨others, last, hrest, h⟩ := of_bind_ok h
      cases h
      obtain ⟨path, text, probed, hhandled⟩ :=
        handled_of_handle hmode hcheck hroot hclosed hlacksFirst hhandle
      obtain ⟨content, hread, hdecode⟩ := hhandled.reads
      have hdirectory : middle.workingDirectory = start.workingDirectory :=
        hhandled.directory.trans hrepeats.directory
      -- The targets behind this one leave its file alone, so it is there in the end.
      have hled := hhandled.led
      rw [hrepeats.directory] at hled
      rw [outputs_cons hled] at hapart
      obtain ⟨hnotLater, hapartRest⟩ := List.nodup_cons.mp hapart
      have hne : ∀ later ∈ names,
          outputOf config root middle.workingDirectory later options.output ≠ .ok path := by
        intro later hlater heq
        rw [hdirectory] at heq
        exact hnotLater (mem_outputs hlater heq)
      obtain ⟨hreadLast, hdirectoryLast⟩ :=
        read_of_mapM hmode hroot hhandled.closed hrest hhandled.admitted hne hread
      have hcurrent : start.tree.currentText start.workingDirectory path = .ok text := by
        rw [htree, ← hdirectory, ← hdirectoryLast]
        exact Artifact.currentText_of_read hreadLast hdecode
      obtain ⟨next, hagain, hnext⟩ :=
        handle_again hhandled hrepeats hfindsFirst hcurrent dryRun
      obtain ⟨final, hrestAgain, hnames⟩ :=
        ih hhandled.closed hrest hnext hlacksRest hapartRest hfindsRest
      refine ⟨final, ?_, ?_⟩
      · simp only [List.mapM_cons, bind_apply, hagain, hrestAgain]
        rfl
      · have htarget := congrArg Outcome.target hhandled.shown
        rw [List.map_cons, hnames]
        exact congrArg (· :: names) htarget

/-- What was generated is up to date. Take a checked configuration, and a run over targets of it
that returned. Let every target have an output path of its own, which is not that of the
configuration, and a name and names of structures without a carriage return. Then a run that checks,
on a host with the files that the first one left behind, the same directory and the same answers of
processes to come, returns with zero if it finds a compiler for every target: every target is
reported as unchanged, and the files are as they were. -/
theorem settled_runGenerate [Interpreter] {options : GenerateOptions} {host after again : Host}
    {root path : Path} {config : Json} {names : List String}
    (hcheck : options.check = false) (hdryRun : options.dryRun = false)
    (hroot : host.resolve options.root = .ok root) (hpath : host.resolve options.config = .ok path)
    (hload : Config.load path host = .ok config host)
    (hnames : Target.names config options.target = .ok names)
    (htree : host.tree.Closed) (hdirectory : ".." ∉ host.workingDirectory)
    (hrun : runGenerate options host = .ok 0 after)
    (hapart : (path :: outputs config root host.workingDirectory options.output names).Nodup)
    (hlacks : ∀ name ∈ names, Config.LacksReturns config name)
    (hfiles : Artifact.SameFiles after again) (hanswers : again.answers = host.answers)
    (hfinds : ∀ name ∈ names, ∀ settings,
      toolchainOf config root host.workingDirectory name = .ok settings →
        Toolchain.FindsCompiler settings again) (dryRun : Bool) :
    ∃ (outcomes : List Outcome) (last : Host),
      runGenerate (options.checking dryRun) again = .ok 0 last ∧
        outcomes.map Outcome.target = names ∧
        (∀ outcome ∈ outcomes, outcome.status = .unchanged) ∧
        last.printed = again.printed ++ String.join (outcomes.map (report options)) ∧
        last.tree = again.tree := by
  have hmode : WriteMode.ofSwitches options.check options.dryRun = .apply := by
    rw [hcheck, hdryRun]
    rfl
  have hanchor := Path.anchor_of_resolve hroot
  obtain ⟨hnotOutput, hapart⟩ := List.nodup_cons.mp hapart
  -- The first run handled all targets.
  rw [runGenerate_eq, bind_apply, selected_apply hroot hpath hload hnames] at hrun
  have hone : ¬((nonEmpty options.output).isSome && names.length ≠ 1) = true := by
    intro hseveral
    rw [if_pos hseveral] at hrun
    cases hrun
  rw [if_neg hone] at hrun
  simp only [generateAll_eq] at hrun
  obtain ⟨outcomes, middle, hhandled, hend⟩ := of_bind_ok hrun
  obtain rfl : middle = after := (EStateM.Result.ok.inj hend).2
  -- It left the configuration alone, so the second run selects the same targets.
  obtain ⟨content, hread⟩ := Config.readBytes_of_load hload
  have hconfig := FileTree.admitted_of_read (Path.anchor_of_resolve hpath)
    (Path.plain_of_resolve hdirectory hpath) hread
  obtain ⟨hreadAfter, hsame⟩ := read_of_mapM hmode hanchor htree hhandled hconfig
    (fun name hname heq => hnotOutput (mem_outputs hname heq)) hread
  have hdirectoryAgain : again.workingDirectory = host.workingDirectory :=
    hfiles.2.symm.trans hsame
  have hloadAgain : Config.load path again = .ok config again := by
    refine Config.load_of_readsAlike hload ?_
    show again.tree.read again.workingDirectory path = host.readBytes path
    rw [← hfiles.1, ← hfiles.2, hread]
    exact hreadAfter
  have hresolveAgain : ∀ text, again.resolve text = host.resolve text := fun text => by
    rw [Host.resolve, Host.resolve, hdirectoryAgain]
  have hselected : selected (options.checking dryRun) again = .ok (root, config, names) again := by
    rw [selected_checking, selected_apply ((hresolveAgain _).trans hroot)
      ((hresolveAgain _).trans hpath) hloadAgain hnames, if_neg hone]
  have hrepeats : again.Repeats host again :=
    ⟨hanswers, hdirectoryAgain.symm, Host.Alike.refl _⟩
  rw [← hdirectoryAgain] at hapart hfinds
  obtain ⟨last, hagain, htargets⟩ := mapM_again hmode (Config.of_load hload).2 hanchor htree
    hhandled hrepeats hfiles.1.symm hlacks hapart hfinds dryRun
  -- Checking changes no file and adds nothing but its lines.
  have hlooks : (options.checking dryRun).OnlyLooks := by
    show WriteMode.verify ≠ .apply
    decide
  obtain ⟨hlastTree, hlastPrinted⟩ := Host.of_withoutProcesses_printing (left_mapM hlooks hagain)
  have hstatuses : ∀ outcome ∈ outcomes.map settled, outcome.status = .unchanged :=
    List.forall_mem_map.mpr fun outcome _ => rfl
  refine ⟨outcomes.map settled, last, ?_, ?_, hstatuses, hlastPrinted, hlastTree⟩
  · have hstatus : exitStatus (options.checking dryRun) (outcomes.map settled) = 0 := by
      rw [exitStatus_checking dryRun fun outcome hmem => .inl (hstatuses outcome hmem), if_neg]
      rintro ⟨outcome, hmem, hchanged⟩
      exact hchanged (hstatuses outcome hmem)
    rw [runGenerate_of_selected hselected, generateAll_eq, bind_apply, hagain]
    show EStateM.Result.ok (exitStatus (options.checking dryRun) (outcomes.map settled)) last = _
    rw [hstatus]
  · rw [List.map_map]
    exact htargets

/-! ### Two targets with one file -/

/-- A target whose file holds another text is written to it, if the file can be written. -/
theorem handled_of_written [Interpreter]
    (hmode : WriteMode.ofSwitches options.check options.dryRun = .apply)
    (hcheck : Config.check config = .ok ()) (hroot : root.anchor = .root)
    (hclosed : host.tree.Closed) {name : String} (hlacks : Config.LacksReturns config name)
    {path : Path} {module text before : String} {probed : Host} {tree : FileTree}
    (hled : outputOf config root host.workingDirectory name options.output = .ok path)
    (hmade : moduleOf config root name host = .ok (module, text) probed)
    (hcurrent : host.tree.currentText host.workingDirectory path = .ok before)
    (hne : before ≠ text)
    (hwrite : FileTree.write host.workingDirectory path (Utf8.encode text) host.tree
      = .ok () tree) :
    ∃ outcome after, handle config root options name host = .ok outcome after ∧
      Handled config root options.output name host after outcome path text probed ∧
      Host.Repeats { host with tree := tree } probed after := by
  obtain ⟨htree, hdirectory⟩ := files_of_moduleOf hmade
  have hkept := (keeps_moduleOf config root name).of_ok hmade
  rw [← htree, ← hdirectory] at hcurrent hwrite
  have hgenerate := generate_of_write hled hmade (Artifact.write_of_written hcurrent hne hwrite)
  rw [← hmode] at hgenerate
  have hhandle := handle_of_generate hgenerate
  obtain ⟨path', text', probed', hhandled⟩ :=
    handled_of_handle hmode hcheck hroot hclosed hlacks hhandle
  cases hled.symm.trans hhandled.led
  cases hmade.symm.trans hhandled.made
  have hrest : Host.Alike { host with tree := tree }.withoutProcesses
      { probed with tree := tree }.withoutProcesses :=
    ⟨host.printed, congrArg (fun kept : Host => { kept with tree := tree }) hkept⟩
  have hrepeats : Host.Repeats { host with tree := tree } probed { probed with tree := tree } :=
    ⟨rfl, hdirectory, hrest⟩
  exact ⟨_, _, hhandle, hhandled, hrepeats.printing _⟩

/-- Two targets were handled, and the file of the first one has the module of the second one by
then, which is another text. A run that checks finds the first one out of date and returns with
one. -/
theorem generateAll_outdated [Interpreter] {first second : String} {middle again : Host}
    {outcome outcome' : Outcome} {path : Path} {text text' : String} {probed probed' : Host}
    (h : Handled config root options.output first host middle outcome path text probed)
    (h' : Handled config root options.output second middle after outcome' path text' probed')
    (hne : text' ≠ text) (hfiles : Artifact.SameFiles after again)
    (hanswers : again.answers = host.answers)
    (hfinds : ∀ name ∈ [first, second], ∀ settings,
      toolchainOf config root host.workingDirectory name = .ok settings →
        Toolchain.FindsCompiler settings again) (dryRun : Bool) :
    ∃ last, generateAll config root (options.checking dryRun) [first, second] again
      = .ok 1 last := by
  have hdirectory : again.workingDirectory = host.workingDirectory :=
    hfiles.2.symm.trans (h'.directory.trans h.directory)
  have hcurrent : again.tree.currentText again.workingDirectory path = .ok text' := by
    obtain ⟨content, hread, hdecode⟩ := h'.reads
    rw [← hfiles.1, ← hfiles.2]
    exact Artifact.currentText_of_read hread hdecode
  have hrepeats : again.Repeats host again :=
    ⟨hanswers, hdirectory.symm, Host.Alike.refl _⟩
  rw [← hdirectory] at hfinds
  obtain ⟨next, hfirst, hnext⟩ := handle_outdated h hrepeats
    (hfinds first List.mem_cons_self) hcurrent hne dryRun
  obtain ⟨last, hsecond, -⟩ := handle_again h' hnext
    (hfinds second (List.mem_cons_of_mem _ List.mem_cons_self)) hcurrent dryRun
  refine ⟨last, ?_⟩
  rw [generateAll_eq]
  simp only [List.mapM_cons, List.mapM_nil, bind_apply, hfirst, hsecond]
  rfl

/-- Two targets with one path and different modules: a run over them that returns leaves the file
with the module of the second one, and a run that checks finds the first one out of date after
that. -/
theorem outdated_of_shared [Interpreter] (hcheck : options.check = false)
    (hdryRun : options.dryRun = false) (hconfig : Config.check config = .ok ())
    (hroot : root.anchor = .root) (hclosed : host.tree.Closed) {first second : String}
    (hlacks : ∀ name ∈ [first, second], Config.LacksReturns config name) {path : Path}
    (hled : ∀ name ∈ [first, second],
      outputOf config root host.workingDirectory name options.output = .ok path)
    {module module' text text' before : String} {probed probed' : Host}
    (hmade : moduleOf config root first host = .ok (module, text) probed)
    (hmade' : moduleOf config root second probed = .ok (module', text') probed')
    (hne : text ≠ text')
    (hcurrent : host.tree.currentText host.workingDirectory path = .ok before)
    (hbefore : before ≠ text) {tree tree' : FileTree}
    (hwrite : FileTree.write host.workingDirectory path (Utf8.encode text) host.tree
      = .ok () tree)
    (hwrite' : FileTree.write host.workingDirectory path (Utf8.encode text') tree = .ok () tree')
    (hfinds : ∀ tree, ∀ name ∈ [first, second], ∀ settings,
      toolchainOf config root host.workingDirectory name = .ok settings →
        Toolchain.FindsCompiler settings { host with tree := tree }) (dryRun : Bool) :
    ∃ after last, generateAll config root options [first, second] host = .ok 0 after ∧
      after.tree = tree' ∧
      generateAll config root (options.checking dryRun) [first, second]
        { host with tree := after.tree } = .ok 1 last := by
  have hmode : WriteMode.ofSwitches options.check options.dryRun = .apply := by
    rw [hcheck, hdryRun]
    rfl
  have hfirst : first ∈ [first, second] := List.mem_cons_self
  have hsecond : second ∈ [first, second] := List.mem_cons_of_mem _ List.mem_cons_self
  obtain ⟨outcome, middle, hhandle, hhandled, hrepeats⟩ := handled_of_written hmode hconfig hroot
    hclosed (hlacks _ hfirst) (hled _ hfirst) hmade hcurrent hbefore hwrite
  -- The second target has its module over the files that the first one left behind, too.
  obtain ⟨_, again, hmadeAgain, rfl, -⟩ :=
    follows_moduleOf (hfinds tree _ hsecond) probed middle hrepeats _ probed' hmade'
  have hdirectory := hhandled.directory
  obtain ⟨content, hread, hdecode⟩ := hhandled.reads
  obtain ⟨outcome', after, hhandle', hhandled', hrepeats'⟩ := handled_of_written hmode hconfig hroot
    hhandled.closed (hlacks _ hsecond) (hdirectory ▸ hled _ hsecond) hmadeAgain
    (Artifact.currentText_of_read hread hdecode) hne
    (by rw [hdirectory, hrepeats.view.tree]; exact hwrite')
  have hrun : [first, second].mapM (handle config root options) host
      = .ok [outcome, outcome'] after := by
    simp only [List.mapM_cons, List.mapM_nil, bind_apply, hhandle, hhandle']
    rfl
  have hfiles : Artifact.SameFiles after { host with tree := after.tree } :=
    ⟨rfl, hhandled'.directory.trans hdirectory⟩
  obtain ⟨last, hlast⟩ := generateAll_outdated hhandled hhandled' hne.symm hfiles rfl
    (hfinds after.tree) dryRun
  exact ⟨after, last, generateAll_of_mapM hcheck hrun, hrepeats'.view.tree, hlast⟩

/-! ### Two targets, twice -/

/-- A first candidate that is the name of a command is found whatever the files are. -/
theorem resolve_of_command {host : Host} {compiler : Option String}
    {further rest : List String} {candidate expanded found : String}
    (hfirst : Compiler.candidates host compiler further = candidate :: rest)
    (hexpanded : Compiler.expand host candidate = .ok expanded)
    (hname : expanded.isEmpty = false ∧ Compiler.isPath expanded = false)
    (hfound : Entries.get? host.commands expanded = some found ∧ found.isEmpty = false) :
    Compiler.resolve host compiler further = .ok found := by
  have hfind : Compiler.find host candidate = .ok (some found) := by
    rw [Compiler.find, hexpanded]
    show Compiler.findExpanded host expanded = _
    rw [Compiler.findExpanded, hname.1, hname.2, hfound.1]
    simp [hfound.2]
  rw [Compiler.resolve, hfirst, Compiler.findFirst, hfind]
  rfl

/-- Settings that say nothing find the compiler of a sample host, whatever is put among its
files. -/
theorem findsCompiler_sampleHost {settings : ToolchainSettings} (configuration : String)
    (outputs : List String) (tree : FileTree) (hcompiler : settings.compiler.nonEmptyText? = none)
    (hcandidates : settings.candidates = []) :
    Toolchain.FindsCompiler settings { sampleHost configuration outputs with tree := tree } := by
  have hscratch : ∀ name ∈ (sampleHost "" []).scratchRoot, '\x00' ∉ name.toList := by decide
  refine ⟨hscratch, fun source => ?_⟩
  rw [hcompiler, hcandidates]
  have hfirst : Compiler.candidates (sampleHost "" []) none [] = ["cc", "gcc", "clang"] := by
    decide +kernel
  have hexpanded : ∀ other : Host, other.environment = (sampleHost "" []).environment →
      other.users = (sampleHost "" []).users → Compiler.expand other "cc" = .ok "cc" := by
    intro other hother husers
    rw [Compiler.expand_of_environment hother husers]
    decide +kernel
  have hfound : Entries.get? (sampleHost "" []).commands "cc" = some "/usr/bin/cc" ∧
      "/usr/bin/cc".isEmpty = false := by decide +kernel
  exact ⟨"/usr/bin/cc",
    resolve_of_command hfirst (hexpanded _ rfl rfl) (by decide +kernel) hfound, by decide⟩

/-- Whether a configuration has targets of these names, as they stand. -/
def hasKeys (keys : List String) (config : Json) : Bool :=
  match config.field? "targets" with
  | some (.object (target :: targets)) => Entries.keys (target :: targets) = keys
  | _ => false

/-- Targets that stand in order are taken as they stand. -/
theorem names_of_keys {config : Json} {keys : List String} (h : hasKeys keys config = true)
    (hsorted : keys.Pairwise fun first second => Json.keyLe first second = true) :
    Target.names config none = .ok keys := by
  unfold hasKeys at h
  split at h
  · rename_i target targets hfield
    rw [Target.names, Target.names.all, hfield]
    show Except.ok (Json.sortTexts (Entries.keys (target :: targets))) = _
    rw [of_decide_eq_true h, Json.sortTexts, List.mergeSort_of_pairwise hsorted]
  · cases h

/-- What the runs below start with. -/
theorem selected_sample {host : Host} {config : Json} {keys : List String}
    (hdirectory : host.workingDirectory = [])
    (hload : Config.load ⟨.root, ["h2py.json"]⟩ host = .ok config host)
    (hkeys : hasKeys keys config = true)
    (hsorted : keys.Pairwise fun first second => Json.keyLe first second = true) :
    selected (sampleOptions ".") host = .ok (⟨.root, []⟩, config, keys) host := by
  have hroot : host.resolve "." = .ok ⟨.root, []⟩ := by
    rw [Host.resolve, hdirectory]
    decide +kernel
  have hpath : host.resolve "h2py.json" = .ok ⟨.root, ["h2py.json"]⟩ := by
    rw [Host.resolve, hdirectory]
    decide +kernel
  exact selected_of_load hroot hpath hload (names_of_keys hkeys hsorted) rfl

/-- Whether a target has constants only and says nothing about its toolchain. -/
def isBare (config : Json) (name : String) : Bool :=
  match Draft.ofTarget config name none, toolchainOf config ⟨.root, []⟩ [] name with
  | .ok draft, .ok settings =>
    draft.declarations.all (fun d => d.internalName? = none) &&
      settings.compiler.nonEmptyText? = none && settings.candidates.isEmpty
  | _, _ => false

/-- Such a target has no structures, and its settings leave the compiler open. -/
theorem of_isBare {config : Json} {name : String} (h : isBare config name = true) :
    (∀ draft, Draft.ofTarget config name none = .ok draft → ∀ s, .struct s ∉ draft.declarations) ∧
      ∀ settings, toolchainOf config ⟨.root, []⟩ [] name = .ok settings →
        settings.compiler.nonEmptyText? = none ∧ settings.candidates = [] := by
  unfold isBare at h
  split at h
  · rename_i draft settings hdraft hsettings
    rw [Bool.and_eq_true, Bool.and_eq_true, decide_eq_true_eq, List.isEmpty_iff] at h
    obtain ⟨⟨hdeclarations, hcompiler⟩, hcandidates⟩ := h
    refine ⟨fun made hmade s hs => ?_, fun made hmade => ?_⟩
    · cases hdraft.symm.trans hmade
      have hnone := of_decide_eq_true (List.all_eq_true.mp hdeclarations (.struct s) hs)
      cases hnone
    · cases hsettings.symm.trans hmade
      exact ⟨hcompiler, hcandidates⟩
  · cases h

/-- Targets without structures bring no carriage return if their names have none. -/
theorem lacksReturns_of_isBare {config : Json} {names : List String}
    (hbare : names.all (isBare config) = true) (hnames : ∀ name ∈ names, '\r' ∉ name.toList) :
    ∀ name ∈ names, Config.LacksReturns config name := fun name hname =>
  ⟨hnames name hname, fun draft hdraft s hs =>
    absurd hs ((of_isBare (List.all_eq_true.mp hbare name hname)).1 draft hdraft s)⟩

theorem findsCompiler_of_isBare {config : Json} {names : List String}
    (hbare : names.all (isBare config) = true) (configuration : String) (outputs : List String)
    (tree : FileTree) :
    ∀ name ∈ names, ∀ settings, toolchainOf config ⟨.root, []⟩ [] name = .ok settings →
      Toolchain.FindsCompiler settings
        { sampleHost configuration outputs with tree := tree } := by
  intro name hname settings hsettings
  obtain ⟨hcompiler, hcandidates⟩ :=
    (of_isBare (List.all_eq_true.mp hbare name hname)).2 settings hsettings
  exact findsCompiler_sampleHost _ _ _ hcompiler hcandidates

/-- A host with two targets in order. -/
def orderedTargets : Host :=
  sampleHost (sampleConfig [sampleTarget "a" "A", sampleTarget "b" "B"]) ["A=1\n", "B=2\n"]

/-- What can be computed of the targets of the host. -/
theorem orderedTargets_facts :
    ∃ config, Config.load ⟨.root, ["h2py.json"]⟩ orderedTargets = .ok config orderedTargets ∧
      hasKeys ["a", "b"] config = true ∧ (["a", "b"].all (isBare config)) = true ∧
      (⟨.root, ["h2py.json"]⟩ :: outputs config ⟨.root, []⟩ [] none ["a", "b"]).Nodup ∧
      (match generateAll config ⟨.root, []⟩ (sampleOptions ".") ["a", "b"] orderedTargets with
        | .ok 0 after => decide (after.workingDirectory = [] ∧ after.tree ≠ orderedTargets.tree)
        | _ => false) = true := by
  have hread : orderedTargets.readBytes ⟨.root, ["h2py.json"]⟩
      = .ok (Utf8.encode (sampleConfig [sampleTarget "a" "A", sampleTarget "b" "B"])) := rfl
  exact load_of_isConfigurationWith hread (by decide +kernel)

/-- Two targets are generated, and both of them are found unchanged after that. -/
theorem settled_runGenerate_orderedTargets :
    ∃ (after last : Host) (outcomes : List Outcome),
      runGenerate (sampleOptions ".") orderedTargets = .ok 0 after ∧
        after.tree ≠ orderedTargets.tree ∧
        runGenerate ((sampleOptions ".").checking false) { orderedTargets with tree := after.tree }
          = .ok 0 last ∧
        outcomes.map Outcome.target = ["a", "b"] ∧
        (∀ outcome ∈ outcomes, outcome.status = .unchanged) ∧ last.tree = after.tree := by
  obtain ⟨config, hload, hkeys, hbare, hapart, hmade⟩ := orderedTargets_facts
  have hsorted : ["a", "b"].Pairwise fun first second => Json.keyLe first second = true := by
    decide +kernel
  have hroot : orderedTargets.resolve "." = .ok ⟨.root, []⟩ := by decide +kernel
  have hpath : orderedTargets.resolve "h2py.json" = .ok ⟨.root, ["h2py.json"]⟩ := by
    decide +kernel
  have hclosed : orderedTargets.tree.Closed := by decide +kernel
  have hrun : runGenerate (sampleOptions ".") orderedTargets
      = generateAll config ⟨.root, []⟩ (sampleOptions ".") ["a", "b"] orderedTargets :=
    runGenerate_of_selected (selected_sample rfl hload hkeys hsorted)
  rw [← hrun] at hmade
  split at hmade
  · rename_i after hresult
    obtain ⟨hdirectory, hchanged⟩ := of_decide_eq_true hmade
    have hlacks := lacksReturns_of_isBare hbare (by decide)
    have hfinds := findsCompiler_of_isBare hbare
      (sampleConfig [sampleTarget "a" "A", sampleTarget "b" "B"]) ["A=1\n", "B=2\n"] after.tree
    obtain ⟨outcomes, last, hagain, htargets, hstatuses, -, htree⟩ :=
      @settled_runGenerate _ (sampleOptions ".") orderedTargets after
        { orderedTargets with tree := after.tree } ⟨.root, []⟩ ⟨.root, ["h2py.json"]⟩ config
        ["a", "b"] rfl rfl hroot hpath hload (names_of_keys hkeys hsorted) hclosed
        List.not_mem_nil hresult hapart hlacks ⟨rfl, hdirectory⟩ rfl hfinds false
    exact ⟨after, last, outcomes, hresult, hchanged, hagain, htargets, hstatuses, htree⟩
  · cases hmade

/-- A configuration of two targets with one module. -/
def sharedModule : String :=
  sampleConfig ["\"a\":\x7b\"module\":\"m\",\"declarations\":[\x7b\"constant\":\"A\"\x7d]\x7d",
    "\"b\":\x7b\"module\":\"m\",\"declarations\":[\x7b\"constant\":\"B\"\x7d]\x7d"]

/-- A host with these targets. -/
def oneFile : Host :=
  sampleHost sharedModule ["A=1\n", "B=2\n"]

/-- The files of the host, with a text in the module. -/
def oneFileHolding (text : String) : FileTree :=
  ⟨oneFile.tree.entries ++ [(["m.py"], .file (Utf8.encode text))]⟩

/-- The module is put in its place, whatever was there. -/
theorem write_oneFile (text : String) :
    FileTree.write [] ⟨.root, ["m.py"]⟩ (Utf8.encode text) oneFile.tree
        = .ok () (oneFileHolding text) ∧
      ∀ other, FileTree.write [] ⟨.root, ["m.py"]⟩ (Utf8.encode text) (oneFileHolding other)
        = .ok () (oneFileHolding text) :=
  ⟨rfl, fun _ => rfl⟩

/-- What can be computed of the two targets: they have one path, and the module of the second one,
made behind the first one, is another text. -/
theorem oneFile_facts :
    ∃ config, Config.load ⟨.root, ["h2py.json"]⟩ oneFile = .ok config oneFile ∧
      hasKeys ["a", "b"] config = true ∧ (["a", "b"].all (isBare config)) = true ∧
      (∀ name ∈ ["a", "b"], (outputOf config ⟨.root, []⟩ [] name none).toOption
        = some ⟨.root, ["m.py"]⟩) ∧
      (match moduleOf config ⟨.root, []⟩ "a" oneFile with
        | .ok (_, text) first =>
          match moduleOf config ⟨.root, []⟩ "b" first with
          | .ok (_, other) _ => decide (text ≠ other)
          | .error _ _ => false
        | .error _ _ => false) = true := by
  have hread : oneFile.readBytes ⟨.root, ["h2py.json"]⟩ = .ok (Utf8.encode sharedModule) := rfl
  exact load_of_isConfigurationWith hread (by decide +kernel)

/-- The two targets are generated to one file. With the files left behind and the same answers, a
run that checks finds the file of the first target out of date. -/
theorem drift_oneFile :
    ∃ (config : Json) (after last : Host), oneFile.tree.Closed ∧
      Config.load ⟨.root, ["h2py.json"]⟩ oneFile = .ok config oneFile ∧
      runGenerate (sampleOptions ".") oneFile = .ok 0 after ∧
      runGenerate ((sampleOptions ".").checking false) { oneFile with tree := after.tree }
        = .ok 1 last := by
  obtain ⟨config, hload, hkeys, hbare, houtputs, hmodules⟩ := oneFile_facts
  have hsorted : ["a", "b"].Pairwise fun first second => Json.keyLe first second = true := by
    decide +kernel
  have hclosed : oneFile.tree.Closed := by decide +kernel
  have houtput : ∀ name ∈ ["a", "b"],
      outputOf config ⟨.root, []⟩ [] name none = .ok ⟨.root, ["m.py"]⟩ := fun name hname =>
    toOption_eq_some_iff.mp (houtputs name hname)
  have hlacks := lacksReturns_of_isBare hbare (by decide)
  have hfinds : ∀ tree, ∀ name ∈ ["a", "b"], ∀ settings,
      toolchainOf config ⟨.root, []⟩ oneFile.workingDirectory name = .ok settings →
        Toolchain.FindsCompiler settings { oneFile with tree := tree } :=
    findsCompiler_of_isBare hbare _ _
  split at hmodules
  · rename_i module text probed hmade
    split at hmodules
    · rename_i module' text' probed' hmade'
      have hne : text ≠ text' := of_decide_eq_true hmodules
      have hcurrent : oneFile.tree.currentText oneFile.workingDirectory ⟨.root, ["m.py"]⟩
          = .ok "" := rfl
      obtain ⟨after, last, hrun, htree, hagain⟩ := @outdated_of_shared config ⟨.root, []⟩
        (sampleOptions ".") oneFile _ rfl rfl (Config.of_load hload).2 rfl hclosed "a" "b" hlacks _
        houtput _ _ _ _ _ _ _ hmade hmade' hne hcurrent (text_ne_empty hmade).symm _ _
        (write_oneFile text).1 ((write_oneFile text').2 text) hfinds false
      have hloadAfter : Config.load ⟨.root, ["h2py.json"]⟩ { oneFile with tree := after.tree }
          = .ok config { oneFile with tree := after.tree } := by
        refine Config.load_of_readsAlike hload ?_
        rw [htree]
        rfl
      have hselected : selected (sampleOptions ".") oneFile
          = .ok (⟨.root, []⟩, config, ["a", "b"]) oneFile :=
        selected_sample rfl hload hkeys hsorted
      have hselectedAfter : selected (sampleOptions ".") { oneFile with tree := after.tree }
          = .ok (⟨.root, []⟩, config, ["a", "b"]) { oneFile with tree := after.tree } :=
        selected_sample rfl hloadAfter hkeys hsorted
      refine ⟨config, after, last, hclosed, hload, ?_, ?_⟩
      · rw [runGenerate_of_selected hselected, hrun]
      · rw [runGenerate_of_selected ((selected_checking _ false).symm ▸ hselectedAfter), hagain]
    · cases hmodules
  · cases hmodules

end HeaderBind.CommandLine
