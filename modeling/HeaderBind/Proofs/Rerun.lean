import HeaderBind.Proofs.Generation
import HeaderBind.Proofs.Path.Spelling

/-!
# `HeaderBind.Proofs.Rerun`: a second run that finds the same toolchain

A target is generated once more on a host with other files. What the toolchain says is in the
answers of its processes and in the compiler that is found, so a second run is to have the same
answers to come and is to find a compiler; which one it finds, and where its scratch directory lies,
may differ. Then what was accepted is accepted again with the same module (`follows_moduleOf`).

`Host.Repeats` is what the two runs have in common at each step. It says of the second host that
nothing but its processes and what was printed has moved since that run began, so the files that it
looks at are one tree all the time.
-/

set_option autoImplicit false

namespace HeaderBind

open Effect

/-- A host in a first run, and one in a second run that began on a host of its own: the same answers
are to come, and the second one has changed nothing but its processes and what was printed. -/
structure Host.Repeats (start host other : Host) : Prop where
  answers : other.answers = host.answers
  directory : host.workingDirectory = start.workingDirectory
  rest : start.withoutProcesses.Alike other.withoutProcesses

namespace Host.Repeats

variable {start host other : Host}

/-- The second run sees what it saw when it began. -/
theorem view (h : start.Repeats host other) : Compiler.SameView start other :=
  .of_alike h.rest

theorem sameDirectory (h : start.Repeats host other) :
    other.workingDirectory = host.workingDirectory :=
  h.view.workingDirectory.trans h.directory.symm

/-- What the second run prints plays no part. -/
theorem printing (h : start.Repeats host other) (text : String) :
    start.Repeats host (other.printing text) := by
  obtain ⟨printed, hrest⟩ := h.rest
  exact ⟨h.answers, h.directory, printed ++ text, congrArg (Host.printing · text) hrest⟩

end Host.Repeats

namespace Toolchain

/-! ### The stages -/

/-- A probe on a host finds a compiler, whatever its program is, and the names that the host gives
can be handed to a process: that of the compiler, and those on the way to a scratch directory. -/
structure FindsCompiler (settings : ToolchainSettings) (host : Host) : Prop where
  scratch : ∀ name ∈ host.scratchRoot, '\x00' ∉ name.toList
  compiler : ∀ source, ∃ found,
    Compiler.resolve (prepared source (.ofHost host)).host settings.compiler.nonEmptyText?
      settings.candidates = .ok found ∧ '\x00' ∉ found.toList

/-- The benches of two runs: their hosts, and a compiler that the second one keeps. -/
structure Repeats (start : Host) (bench other : Bench) : Prop where
  host : start.Repeats bench.host other.host
  found : ∀ again, other.found = some again → '\x00' ∉ again.toList

variable {start : Host}

/-! ### Commands of the second run -/

theorem isLaunchable_iff {command : List String} :
    isLaunchable command = true ↔ ∀ word ∈ command, '\x00' ∉ word.toList := by
  simp [isLaunchable]

/-- A path has no zero character if no name on the way has one. -/
theorem zero_not_mem_text {place : Location} (h : ∀ name ∈ place, '\x00' ∉ name.toList) :
    '\x00' ∉ (⟨.root, place⟩ : Path).text.toList := by
  have hnormal : ¬ ((⟨.root, place⟩ : Path).anchor = .relative ∧
      (⟨.root, place⟩ : Path).parts = []) := fun hpoint => nomatch hpoint.1
  rw [Path.toList_text hnormal, List.mem_append, not_or]
  have hroot : '\x00' ∉ Anchor.root.text.toList := by decide
  refine ⟨hroot, fun hjoined => ?_⟩
  obtain ⟨piece, hpiece, hzero⟩ := (Text.mem_intercalate_iff (by decide)).mp hjoined
  obtain ⟨name, hname, rfl⟩ := List.mem_map.mp hpiece
  exact h name hname hzero

theorem zero_not_mem_scratchName (taken : List String) : '\x00' ∉ (scratchName taken).toList := by
  have hstem : '\x00' ∉ scratchStem.toList := by decide
  rw [scratchName]
  split
  · simp [hstem]
  · decide

/-- The files of a probe can be handed to a process if the place for a scratch directory can. -/
theorem zero_not_mem_probeFiles (family : Family) {host : Host}
    (h : ∀ name ∈ host.scratchRoot, '\x00' ∉ name.toList) :
    let files := probeFiles family (scratchDirectory host)
    '\x00' ∉ files.source.text.toList ∧ '\x00' ∉ files.object.text.toList ∧
      '\x00' ∉ files.executable.text.toList := by
  have hfile : ∀ name : String, '\x00' ∉ name.toList →
      '\x00' ∉ (⟨.root, scratchDirectory host ++ [name]⟩ : Path).text.toList := by
    intro name hname
    refine zero_not_mem_text fun step hstep => ?_
    rw [scratchDirectory, List.append_assoc, List.mem_append] at hstep
    rcases hstep with hroot | hinside
    · exact h step hroot
    · simp only [List.mem_append, List.mem_singleton] at hinside
      rcases hinside with rfl | rfl
      · exact zero_not_mem_scratchName _
      · exact hname
  cases family <;>
    exact ⟨hfile _ (by decide), hfile _ (by decide), hfile _ (by decide)⟩

/-! ### The stages -/

/-- A process answers as it did, whatever its command is now, as long as it can be launched. -/
theorem follows_execute (stage : Stage) {command command' : List String}
    (h : isLaunchable command = true → isLaunchable command' = true) :
    Follows (Repeats start) Eq (execute stage command) (execute stage command') := by
  refine follows_bind (V := Eq) (follows_modify fun bench other h => ⟨h.host, h.found⟩)
    fun _ _ _ => ?_
  refine follows_bind (V := Eq) ?_ fun _ _ _ => ?_
  · rw [demandLaunchable, demandLaunchable]
    cases hlaunchable : isLaunchable command with
    | false => exact follows_throw _ _
    | true =>
        rw [h hlaunchable]
        exact follows_pure rfl
  refine follows_bind (V := Eq) ?_ ?_
  · -- The answers to come are the same, so the first of them is.
    intro bench other h answer after hlaunch
    cases hlaunch
    refine ⟨_, _, rfl, ?_, ⟨congrArg List.tail h.host.answers, h.host.directory, h.host.rest⟩,
      h.found⟩
    rw [h.host.answers]
  · rintro answer _ rfl
    cases answer with
    | failed reason => exact follows_throw _ _
    | garbled fault => exact follows_throw _ _
    | finished status output diagnostics =>
        by_cases hstatus : status = 0
        · simp only [if_pos hstatus]
          exact follows_pure rfl
        · simp only [if_neg hstatus]
          exact follows_throw _ _

/-- Some compiler is found, and it can be launched. It need not be the one that was found at
first. -/
theorem follows_compiler {settings : ToolchainSettings} {found : String}
    (hfound : Compiler.resolve start settings.compiler.nonEmptyText? settings.candidates
      = .ok found) (hclean : '\x00' ∉ found.toList) :
    Follows (Repeats start) (fun _ again => '\x00' ∉ again.toList) (compiler settings)
      (compiler settings) := by
  intro bench other h value after hcompiler
  rw [compiler_apply] at hcompiler
  have hother : ∃ again, compilerOf settings other = .ok again ∧ '\x00' ∉ again.toList := by
    unfold compilerOf
    cases hkept : other.found with
    | some again => exact ⟨again, rfl, h.found again hkept⟩
    | none => exact ⟨found, h.host.view.resolve _ _ ▸ hfound, hclean⟩
  obtain ⟨again, hagain, hagainClean⟩ := hother
  rw [compiler_apply, hagain]
  refine ⟨again, _, rfl, hagainClean, ?_, fun _ hkept => ?_⟩
  · -- What the toolchain keeps is no part of its host.
    split at hcompiler
    · cases hcompiler
      exact h.host
    · cases hcompiler
  · cases hkept
    exact hagainClean

theorem follows_noteCompiled (source source' : Path) (command command' : List String) :
    Follows (Repeats start) Eq (noteCompiled source command) (noteCompiled source' command') := by
  refine follows_modify fun bench other h => ?_
  cases isLaunchable command <;> cases isLaunchable command' <;>
    cases bench.host.readBytes source <;> cases other.host.readBytes source' <;>
    exact ⟨⟨h.host.answers, h.host.directory, h.host.rest⟩, h.found⟩

/-- The second run has the flags of the first one, so its commands can be launched if those of the
first one can. -/
theorem follows_stages {settings : ToolchainSettings} {found : String}
    (hfound : Compiler.resolve start settings.compiler.nonEmptyText? settings.candidates
      = .ok found) (hclean : '\x00' ∉ found.toList) (files : ProbeFiles) {files' : ProbeFiles}
    (hfiles : '\x00' ∉ files'.source.text.toList ∧ '\x00' ∉ files'.object.text.toList ∧
      '\x00' ∉ files'.executable.text.toList) :
    Follows (Repeats start) Eq (stages settings files) (stages settings files') := by
  have hexecute : ∀ stage {command command'},
      (isLaunchable command = true → isLaunchable command' = true) →
      Follows (Repeats start) Eq (discard (execute stage command))
        (discard (execute stage command')) :=
    fun stage _ _ h => follows_bind (follows_execute stage h) fun _ _ _ => follows_pure rfl
  obtain ⟨hsource, hobject, hexecutable⟩ := hfiles
  refine follows_bind (follows_compiler hfound hclean) fun first again hagain => ?_
  refine follows_bind (follows_noteCompiled _ _ _ _) fun _ _ _ => ?_
  refine follows_bind (hexecute _ ?_) fun _ _ _ => ?_
  · simp +contextual [isLaunchable_iff, compileCommand, or_imp, forall_and, hagain, hsource,
      hobject]
  refine follows_bind (follows_compiler hfound hclean) fun first again hagain => ?_
  refine follows_bind (hexecute _ ?_) fun _ _ _ => follows_execute _ ?_
  · simp +contextual [isLaunchable_iff, linkCommand, or_imp, forall_and, hagain, hobject,
      hexecutable]
  · simp [isLaunchable_iff, runCommand, hexecutable]

/-- A probe prints what it printed at first. -/
theorem follows_probe {settings : ToolchainSettings} (hfinds : FindsCompiler settings start)
    (source : String) :
    Follows (Repeats start) Eq (probe settings source) (probe settings source) := by
  intro bench other h output after hprobe
  obtain ⟨found, hfound, hclean⟩ := hfinds.compiler source
  -- Each run works on the files of its own, with a scratch directory among them.
  have hprepared : Repeats (prepared source (.ofHost start)).host (prepared source bench)
      (prepared source other) := by
    obtain ⟨printed, hrest⟩ := h.host.rest
    refine ⟨⟨h.host.answers, h.host.directory, printed, ?_⟩, h.found⟩
    exact congrArg (fun host => (prepared source (.ofHost host)).host) hrest
  have hscratch : other.host.scratchRoot = start.scratchRoot := by
    obtain ⟨printed, hrest⟩ := h.host.rest
    have hsame := congrArg Host.scratchRoot hrest
    exact hsame
  have hstages := follows_stages hfound hclean
    (probeFiles bench.host.family (scratchDirectory bench.host))
    (zero_not_mem_probeFiles other.host.family (hscratch ▸ hfinds.scratch)) _ _ hprepared
  have hkept := keeps_probe settings source other
  rw [probe_apply] at hprobe
  cases hfirst : stages settings (probeFiles bench.host.family (scratchDirectory bench.host))
      (prepared source bench) with
  | error error middle => rw [hfirst] at hprobe; cases hprobe
  | ok printed middle =>
      rw [hfirst] at hprobe
      cases hprobe
      obtain ⟨_, middle', hsecond, rfl, hmiddle⟩ := hstages _ _ hfirst
      rw [probe_apply, hsecond] at hkept ⊢
      -- Afterwards the scratch directory is gone and the files are those from before.
      refine ⟨_, _, rfl, rfl, ⟨hmiddle.host.answers, hmiddle.host.directory, ?_⟩, hmiddle.found⟩
      have hrest : (cleaned (scratchDirectory other.host) middle').still = other.still := hkept
      show start.withoutProcesses.Alike (cleaned (scratchDirectory other.host) middle').still
      rw [hrest]
      exact h.host.rest

/-- What the steps of a toolchain come to again, they come to again on a host. -/
theorem follows_onHost {α : Type} {act act' : BenchAction α}
    (h : Follows (Repeats start) Eq act act') :
    Follows start.Repeats (fun made made' => made'.1 = made.1) (onHost act) (onHost act') := by
  intro host other hrepeats made after hact
  unfold onHost at hact ⊢
  cases hfirst : act (.ofHost host) with
  | error error bench => rw [hfirst] at hact; cases hact
  | ok value bench =>
      rw [hfirst] at hact
      cases hact
      have hbegin : Repeats start (.ofHost host) (.ofHost other) :=
        ⟨hrepeats, fun _ hnothing => nomatch hnothing⟩
      obtain ⟨_, bench', hsecond, rfl, hafter⟩ := h _ _ hbegin _ _ hfirst
      rw [hsecond]
      exact ⟨_, _, rfl, rfl, hafter.host⟩

end Toolchain

namespace Action

variable {α ε : Type} {R : Host → Host → Prop}

theorem follows_ofExcept (wrap : ε → Error) (result : Except ε α) :
    Follows R (fun value value' => value' = value ∧ result = .ok value) (ofExcept wrap result)
      (ofExcept wrap result) := by
  cases result with
  | ok value => exact follows_pure ⟨rfl, rfl⟩
  | error fault => exact follows_throw _ _

end Action

namespace Generation

/-! ### One target -/

/-- The settings of the toolchain of a target, by its name. -/
def toolchainOf (config : Json) (root : Path) (workingDirectory : Location) (name : String) :
    Except Target.Fault ToolchainSettings := do
  let target ← Target.find config (some name)
  Target.toolchain target root workingDirectory

variable {config : Json} {root : Path} {name : String} {start : Host}

theorem follows_prepare [Interpreter] :
    Follows start.Repeats
      (fun made made' => made' = made ∧
        toolchainOf config root start.workingDirectory name = .ok made.2)
      (prepare config root name) (prepare config root name) := by
  refine follows_bind (Action.follows_ofExcept _ _) ?_
  rintro target _ ⟨rfl, hfind⟩
  -- The toolchain is read against the working directory, which is that of the first run.
  refine follows_get_bind fun host other h => ?_
  rw [h.sameDirectory, h.directory]
  refine follows_bind (Action.follows_ofExcept _ _) ?_
  rintro settings _ ⟨rfl, hsettings⟩
  refine follows_bind (Action.follows_ofExcept _ _) ?_
  rintro draft _ ⟨rfl, -⟩
  refine follows_pure ⟨rfl, ?_⟩
  rw [toolchainOf, hfind]
  exact hsettings

/-- The module that was made is made again. -/
theorem follows_moduleOf [Interpreter]
    (hfinds : ∀ settings, toolchainOf config root start.workingDirectory name = .ok settings →
      Toolchain.FindsCompiler settings start) :
    Follows start.Repeats Eq (moduleOf config root name) (moduleOf config root name) := by
  refine follows_bind follows_prepare ?_
  rintro ⟨draft, settings⟩ _ ⟨rfl, hsettings⟩
  refine follows_bind (Toolchain.follows_onHost
    (Draft.follows_finish (Toolchain.follows_probe (hfinds settings hsettings)) draft)) ?_
  rintro ⟨⟨text, next⟩, commands⟩ ⟨_, commands'⟩ rfl
  exact follows_pure rfl

/-- What is known of a target that was generated: where it was to go, what its module was, and that
the file was brought up to date. -/
theorem of_generate [Interpreter] {output : Option String} {mode : WriteMode} {host after : Host}
    {outcome : Outcome} (h : generate config root name output mode host = .ok outcome after) :
    ∃ path module text status difference probed,
      outputOf config root host.workingDirectory name output = .ok path ∧
        moduleOf config root name host = .ok (module, text) probed ∧
        Artifact.write path text mode probed = .ok (status, difference) after ∧
        outcome = ⟨name, module, path, status, difference⟩ := by
  rw [generate_eq, get_bind_apply] at h
  obtain ⟨path, middle, hlookup, hrest⟩ := of_bind_ok h
  obtain ⟨hpath, hsame⟩ := Action.of_ofExcept hlookup
  subst hsame
  obtain ⟨⟨module, text⟩, probed, hmade, hrest⟩ := of_bind_ok hrest
  obtain ⟨⟨status, difference⟩, last, hwrite, hrest⟩ := of_bind_ok hrest
  cases hrest
  exact ⟨path, module, text, status, difference, probed, hpath, hmade, hwrite, rfl⟩

/-- A target is generated once its module is made and its file brought up to date. -/
theorem generate_of_write [Interpreter] {output : Option String} {mode : WriteMode}
    {host probed after : Host} {path : Path} {module text difference : String}
    {status : ArtifactStatus}
    (hpath : outputOf config root host.workingDirectory name output = .ok path)
    (hmade : moduleOf config root name host = .ok (module, text) probed)
    (hwrite : Artifact.write path text mode probed = .ok (status, difference) after) :
    generate config root name output mode host
      = .ok ⟨name, module, path, status, difference⟩ after := by
  rw [generate_eq, get_bind_apply, hpath]
  show (moduleOf config root name >>= fun made => Artifact.write path made.2 mode
    >>= fun written => pure ⟨name, made.1, path, written.1, written.2⟩ : Action Outcome) host = _
  rw [bind_apply, hmade]
  simp only
  rw [bind_apply, hwrite]
  rfl

end Generation

end HeaderBind
