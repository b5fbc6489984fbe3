import HeaderBind.Proofs.Escape.Files
import HeaderBind.Proofs.Module.ReadBack
import HeaderBind.Proofs.Report
import HeaderBind.Proofs.Rerun
import HeaderBind.Proofs.Stages

/-!
# `HeaderBind.Proofs.Escape.Target`: errors that escape while a target is worked on

Resolving the declarations of a target has four sources of errors that escape
(`Generation.Unresolvable`). One is a directory of headers that can lie nowhere. The others are met
with the draft of the target at hand (`Generation.Stuck`): a candidate for the compiler that cannot
be looked for, a stage that ends in another way than by success or failure (`Toolchain.Jammed`), and
a number that a probe prints for a structure. Everything else is accepted or refused in the
program's own words. In particular, the declarations of a checked configuration
are replayed in them, and a module and a report can be written whenever their declarations were
resolved.

Generating a target adds its output path and the file that is there (`Generation.Ungenerable`).
-/

set_option autoImplicit false

namespace HeaderBind

open Effect

/-! ### Targets and drafts -/

namespace Target

/-- A target that is not found is missing from the configuration. -/
theorem not_escapes_of_find {config : Json} {name : Option String} {fault : Fault}
    (h : find config name = .error fault) : ¬ (Error.ofTarget fault).Escapes := by
  unfold find at h
  split at h
  · split at h
    · cases h
    · cases h
      exact nofun
  · cases h
    exact nofun

end Target

namespace Draft

/-- A target of a checked configuration is replayed in the program's own words: it is missing, or
its names are in conflict. -/
theorem not_escapes_of_ofTarget [Interpreter] {config : Json}
    (hcheck : Config.check config = .ok ()) {name : String} {label : Option String} {error : Error}
    (h : ofTarget config name label = .error error) : ¬ error.Escapes := by
  by_cases hname : name ∈ Entries.keys (Config.targets config)
  · obtain ⟨target, module, items, -, -, -, -, houtcome⟩ :=
      replayOutcome_ofTarget hcheck hname label
    rw [h] at houtcome
    cases houtcome with
    | clash first =>
        obtain ⟨_, _, _, _, _, hclash⟩ := first
        rw [ofDraft_of_clash hclash]
        exact nofun
  · rcases bind_eq_error_iff.mp h with hfind | ⟨target, hfind, -⟩
    · obtain ⟨fault, hfault, rfl⟩ := mapError_eq_error_iff.mp hfind
      exact Target.not_escapes_of_find hfault
    · exact absurd (Target.mem_keys_of_find (mapError_eq_ok_iff.mp hfind)) hname

variable {σ : Type} {run : String → EStateM Error σ String} {draft : Draft} {s : σ}

/-- A draft is resolved in the program's own words unless the run of its probe escapes, or a number
that was printed does. -/
theorem escapes_resolve_iff :
    RefusedBy Error.Escapes (draft.resolve run) s ↔ draft.isPending = true ∧
      (RefusedBy Error.Escapes (run draft.probeSource) s ∨
        ∃ output after fault, run draft.probeSource s = .ok output after ∧
          Resolution.resolve draft.declarations output = .error (.numeral fault)) := by
  have hlift : ∀ output (after : σ),
      RefusedBy Error.Escapes
        (lift Error.ofResolution (Resolution.resolve draft.declarations output)
          : EStateM Error σ (List Resolved)) after
        ↔ ∃ fault, Resolution.resolve draft.declarations output = .error (.numeral fault) := by
    intro output after
    cases Resolution.resolve draft.declarations output with
    | ok resolved => exact iff_of_false (not_refusedBy_of_ok rfl) nofun
    | error fault =>
        refine refusedBy_throw_iff.trans (Error.escapes_ofResolution_iff.trans ?_)
        exact exists_congr fun cause => ⟨congrArg Except.error, Except.error.inj⟩
  unfold resolve
  cases hpending : draft.isPending with
  | true =>
      simp only [if_true, true_and, refusedBy_bind_iff, hlift]
      exact or_congr_right (exists_congr fun output => exists_congr fun after =>
        exists_and_left.symm)
  | false => exact iff_of_false (not_refusedBy_of_ok rfl) nofun

end Draft

/-! ### The toolchain -/

/-- A search for a compiler is refused in the program's own words unless a file is looked for in
vain. -/
theorem Compiler.escapes_of_resolve_iff {host : Host} {compiler : Option String}
    {further : List String} {error : Error} (h : resolve host compiler further = .error error) :
    error.Escapes ↔ ∃ fault, error = .file fault := by
  simp only [resolve] at h
  split at h
  · cases h
  · cases h
    refine iff_of_false Bool.noConfusion ?_
    rintro ⟨fault, hfault⟩
    cases hfault
  · cases h
    exact iff_of_true rfl ⟨_, rfl⟩

namespace Toolchain

variable {settings : ToolchainSettings} {bench : Bench}

/-- What is refused of a toolchain is refused by its search. -/
theorem escapes_of_compilerOf_iff {error : Error} (h : compilerOf settings bench = .error error) :
    error.Escapes ↔ ∃ fault, error = .file fault := by
  unfold compilerOf at h
  split at h
  · cases h
  · exact Compiler.escapes_of_resolve_iff h

/-- Planned stages one of which ends with an error that is no failure of the stage. -/
inductive Jammed : (answer : Nat → Launch) → (planned : List (Stage × List String)) → Prop
  /-- A word of the first command has a zero character in it. -/
  | command {answer : Nat → Launch} {stage : Stage} {command : List String}
      {later : List (Stage × List String)} (unlaunchable : isLaunchable command = false) :
      Jammed answer ((stage, command) :: later)
  /-- What the first process prints is no text. -/
  | output {answer : Nat → Launch} {stage : Stage} {command : List String}
      {later : List (Stage × List String)} {fault : Utf8.Fault}
      (launchable : isLaunchable command = true)
      (garbled : (answer 0).outcome = .error (.garbled fault)) :
      Jammed answer ((stage, command) :: later)
  /-- The first stage succeeds, and one of the later ones ends so. -/
  | later {answer : Nat → Launch} {step : Stage × List String}
      {planned : List (Stage × List String)} {output : String}
      (launchable : isLaunchable step.2 = true) (passed : (answer 0).outcome = .ok output)
      (rest : Jammed (fun n => answer (n + 1)) planned) : Jammed answer (step :: planned)

/-- Planned stages jam at the first one, or behind it if it succeeds. -/
theorem jammed_cons_iff {answer : Nat → Launch} {stage : Stage} {command : List String}
    {planned : List (Stage × List String)} :
    Jammed answer ((stage, command) :: planned) ↔
      (isLaunchable command = false ∨ isLaunchable command = true ∧
        ∃ fault, (answer 0).outcome = .error (.garbled fault)) ∨
      isLaunchable command = true ∧ (∃ output, (answer 0).outcome = .ok output) ∧
        Jammed (fun n => answer (n + 1)) planned := by
  constructor
  · intro h
    cases h with
    | command unlaunchable => exact .inl (.inl unlaunchable)
    | output launchable garbled => exact .inl (.inr ⟨launchable, _, garbled⟩)
    | later launchable passed rest => exact .inr ⟨launchable, ⟨_, passed⟩, rest⟩
  · rintro ((unlaunchable | ⟨launchable, _, garbled⟩) | ⟨launchable, ⟨_, passed⟩, rest⟩)
    · exact .command unlaunchable
    · exact .output launchable garbled
    · exact .later launchable passed rest

theorem not_jammed_nil (answer : Nat → Launch) : ¬ Jammed answer [] :=
  nofun

/-- A stage escapes when its command cannot be launched, or its process prints what is no text. -/
theorem escapes_execute_iff {stage : Stage} {command : List String} :
    RefusedBy Error.Escapes (execute stage command) bench ↔
      isLaunchable command = false ∨ isLaunchable command = true ∧
        ∃ fault, (bench.host.answer 0).outcome = .error (.garbled fault) := by
  have happly := execute_apply stage command bench
  cases hlaunchable : isLaunchable command with
  | false =>
      rw [hlaunchable, if_neg Bool.false_ne_true] at happly
      exact iff_of_true ((refusedBy_iff_of_error happly).mpr rfl) (.inl rfl)
  | true =>
      rw [hlaunchable, if_pos rfl] at happly
      simp only [Bool.true_eq_false, false_or, true_and]
      cases houtcome : (bench.host.answer 0).outcome with
      | ok output =>
          rw [houtcome] at happly
          exact iff_of_false (not_refusedBy_of_ok happly) nofun
      | error failure =>
          rw [houtcome] at happly
          rw [refusedBy_iff_of_error happly]
          cases failure with
          | failed reason => exact iff_of_false nofun nofun
          | garbled fault => exact iff_of_true rfl ⟨fault, rfl⟩

/-- A stage is accepted when its command can be launched and its process leaves an output. -/
theorem execute_eq_ok_iff {stage : Stage} {command : List String} {output : String}
    {after : Bench} :
    execute stage command bench = .ok output after ↔ isLaunchable command = true ∧
      (bench.host.answer 0).outcome = .ok output ∧ after = bench.launching [command] := by
  rw [execute_apply]
  cases isLaunchable command with
  | false => simp
  | true => cases (bench.host.answer 0).outcome <;> simp [eq_comm]

/-- A run of stages escapes when it jams. -/
theorem escapes_runAll_iff (first : Stage × List String) (rest : List (Stage × List String))
    (bench : Bench) :
    RefusedBy Error.Escapes (runAll first rest) bench
      ↔ Jammed bench.host.answer (first :: rest) := by
  induction rest generalizing first bench with
  | nil =>
      obtain ⟨stage, command⟩ := first
      rw [runAll, escapes_execute_iff, jammed_cons_iff]
      simp [not_jammed_nil]
  | cons next rest ih =>
      obtain ⟨stage, command⟩ := first
      have hfirst : RefusedBy Error.Escapes (discard (execute stage command)) bench
          ↔ RefusedBy Error.Escapes (execute stage command) bench := refusedBy_bind_pure_iff
      rw [runAll, refusedBy_bind_iff, hfirst, escapes_execute_iff, jammed_cons_iff]
      refine or_congr_right ?_
      constructor
      · rintro ⟨_, middle, hdone, h⟩
        obtain ⟨output, executed, hexecuted, hpure⟩ := of_bind_ok hdone
        cases hpure
        obtain ⟨hlaunchable, houtcome, rfl⟩ := execute_eq_ok_iff.mp hexecuted
        rw [ih, Bench.answer_launching] at h
        exact ⟨hlaunchable, ⟨output, houtcome⟩, h⟩
      · rintro ⟨hlaunchable, ⟨output, houtcome⟩, h⟩
        have hexecuted : execute stage command bench = .ok output (bench.launching [command]) :=
          execute_eq_ok_iff.mpr ⟨hlaunchable, houtcome, rfl⟩
        refine ⟨⟨⟩, bench.launching [command], ?_, ?_⟩
        · show (execute stage command >>= fun _ => pure PUnit.unit) bench = _
          rw [bind_apply, hexecuted]
          rfl
        · rw [ih, Bench.answer_launching]
          exact h

/-- A probe escapes when the search for its compiler does, or its stages jam. -/
theorem escapes_stages_iff {files : ProbeFiles} :
    RefusedBy Error.Escapes (stages settings files) bench ↔
      (∃ fault, compilerOf settings bench = .error (.file fault)) ∨
        ∃ found, compilerOf settings bench = .ok found ∧
          Jammed bench.host.answer (plan settings found files) := by
  cases hcompiler : compilerOf settings bench with
  | error error =>
      have hstages : stages settings files bench = .error error bench := by
        rw [stages, bind_apply, compiler_apply, hcompiler]
      rw [refusedBy_iff_of_error hstages, escapes_of_compilerOf_iff hcompiler]
      simp
  | ok found =>
      obtain ⟨first, rest, compiled, hplan, hstages⟩ := stages_of_found hcompiler files
      rw [RefusedBy, hstages]
      refine (escapes_runAll_iff first rest _).trans ?_
      rw [← hplan]
      constructor
      · exact fun hjammed => Or.inr ⟨found, rfl, hjammed⟩
      · rintro (⟨fault, h⟩ | ⟨_, h, hjammed⟩) <;> cases h
        exact hjammed

/-- Cleaning up makes no difference to what escapes from a probe. -/
theorem escapes_probe_iff {source : String} :
    RefusedBy Error.Escapes (probe settings source) bench ↔
      (∃ fault, compilerOf settings (prepared source bench) = .error (.file fault)) ∨
        ∃ found, compilerOf settings (prepared source bench) = .ok found ∧
          Jammed bench.host.answer (plan settings found
            (probeFiles bench.host.family (scratchDirectory bench.host))) := by
  have happly := probe_apply settings source bench
  refine Iff.trans ?_ escapes_stages_iff
  cases hstages : stages settings (probeFiles bench.host.family (scratchDirectory bench.host))
      (prepared source bench) with
  | ok output after =>
      rw [hstages] at happly
      exact iff_of_false (not_refusedBy_of_ok happly) (not_refusedBy_of_ok hstages)
  | error error after =>
      rw [hstages] at happly
      rw [refusedBy_iff_of_error happly, refusedBy_iff_of_error hstages]

theorem escapes_onHost_iff {α : Type} {act : BenchAction α} {host : Host} :
    RefusedBy Error.Escapes (onHost act) host ↔ RefusedBy Error.Escapes act (.ofHost host) := by
  cases hact : act (.ofHost host) with
  | ok value after =>
      have hran : onHost act host = .ok (value, after.recorded) after.host := by
        rw [onHost, hact]
      exact iff_of_false (not_refusedBy_of_ok hran) (not_refusedBy_of_ok hact)
  | error error after =>
      have hran : onHost act host = .error error after.host := by
        rw [onHost, hact]
      rw [refusedBy_iff_of_error hran, refusedBy_iff_of_error hact]

end Toolchain

/-! ### Targets that are worked on -/

namespace Generation

/-- Why the declarations of a draft are refused in words that are not the program's own, with a
toolchain at hand. -/
inductive Stuck (settings : ToolchainSettings) (draft : Draft) (host : Host) : Prop
  /-- A compiler is looked for at a path that is too long, or in the home of a user whose name no
  one can have. -/
  | compiler {fault : FileTree.Fault}
      (searched : Compiler.resolve (Toolchain.prepared draft.probeSource (.ofHost host)).host
        settings.compiler.nonEmptyText? settings.candidates = .error (.file fault)) :
      Stuck settings draft host
  /-- A stage of the probe ends in another way than by success or failure. -/
  | jammed {compiler : String}
      (searched : Compiler.resolve (Toolchain.prepared draft.probeSource (.ofHost host)).host
        settings.compiler.nonEmptyText? settings.candidates = .ok compiler)
      (jams : Toolchain.Jammed host.answer (Toolchain.plan settings compiler
        (Toolchain.probeFiles host.family (Toolchain.scratchDirectory host)))) :
      Stuck settings draft host
  /-- A number that the probe prints for a structure is no numeral, or has too many digits to be
  read or to be shown in a message about the layout. -/
  | number {output : String} {bench : Bench} {fault : Numeral.Fault}
      (printed : Toolchain.probe settings draft.probeSource (.ofHost host) = .ok output bench)
      (refused : Resolution.resolve draft.declarations output = .error (.numeral fault)) :
      Stuck settings draft host

theorem escapes_resolve_iff {settings : ToolchainSettings} {draft : Draft} {host : Host} :
    RefusedBy Error.Escapes (draft.resolve (Toolchain.probe settings)) (.ofHost host)
      ↔ draft.isPending = true ∧ Stuck settings draft host := by
  rw [Draft.escapes_resolve_iff, Toolchain.escapes_probe_iff]
  refine and_congr_right fun _ => ⟨?_, fun h => ?_⟩
  · rintro ((⟨fault, hsearched⟩ | ⟨found, hsearched, hjammed⟩) |
      ⟨output, bench, fault, hprinted, hrefused⟩)
    · exact .compiler hsearched
    · exact .jammed hsearched hjammed
    · exact .number hprinted hrefused
  · cases h with
    | compiler searched => exact .inl (.inl ⟨_, searched⟩)
    | jammed searched jams => exact .inl (.inr ⟨_, searched, jams⟩)
    | number printed refused => exact .inr ⟨_, _, _, printed, refused⟩

variable [Interpreter] {config : Json} {root : Path} {name : String} {host : Host}

/-- Preparing a target changes nothing. Its toolchain is looked at first. -/
theorem prepare_apply (config : Json) (root : Path) (name : String) (host : Host) :
    prepare config root name host
      = match toolchainOf config root host.workingDirectory name with
        | .error fault => .error (.ofTarget fault) host
        | .ok settings =>
          match Draft.ofTarget config name none with
          | .error error => .error error host
          | .ok draft => .ok (draft, settings) host := by
  unfold prepare toolchainOf
  rw [bind_apply]
  cases Target.find config (some name) with
  | error fault => rfl
  | ok target =>
      show (Action.ofExcept Error.ofTarget (Target.toolchain target root host.workingDirectory)
        >>= fun settings => Action.ofExcept id (Draft.ofTarget config name none)
        >>= fun draft => pure (draft, settings)) host
        = match Target.toolchain target root host.workingDirectory with
          | .error fault => .error (.ofTarget fault) host
          | .ok settings => _
      rw [bind_apply]
      cases Target.toolchain target root host.workingDirectory with
      | error fault => rfl
      | ok settings => cases Draft.ofTarget config name none <;> rfl

/-- Why the declarations of a target are refused in words that are not the program's own. -/
inductive Unresolvable (config : Json) (root : Path) (name : String) (host : Host) : Prop
  /-- The path of a directory of headers can lead nowhere. -/
  | headers {fault : Path.Fault}
      (read : toolchainOf config root host.workingDirectory name = .error (.path fault)) :
      Unresolvable config root name host
  /-- There is something to resolve, and the draft of the target is stuck. -/
  | draft {settings : ToolchainSettings} {draft : Draft}
      (read : toolchainOf config root host.workingDirectory name = .ok settings)
      (replayed : Draft.ofTarget config name none = .ok draft) (pending : draft.isPending = true)
      (stuck : Stuck settings draft host) : Unresolvable config root name host

/-- Whatever is done with a target that was prepared, if only resolving its declarations can escape,
then it escapes when they do. -/
theorem escapes_prepare_bind_iff (hcheck : Config.check config = .ok ()) {α : Type}
    {next : Draft × ToolchainSettings → Action α}
    (hnext : ∀ draft settings, toolchainOf config root host.workingDirectory name = .ok settings →
      Draft.ofTarget config name none = .ok draft →
      (RefusedBy Error.Escapes (next (draft, settings)) host
        ↔ RefusedBy Error.Escapes (draft.resolve (Toolchain.probe settings)) (.ofHost host))) :
    RefusedBy Error.Escapes (prepare config root name >>= next) host
      ↔ Unresolvable config root name host := by
  have happly := prepare_apply config root name host
  -- Refused for its toolchain, refused for its draft, or both of them at hand.
  cases hread : toolchainOf config root host.workingDirectory name with
  | error fault =>
      rw [hread] at happly
      rw [RefusedBy, bind_apply, happly]
      refine (refusedBy_throw_iff (s := host)).trans (Error.escapes_ofTarget_iff.trans ?_)
      constructor
      · rintro ⟨cause, rfl⟩
        exact .headers hread
      · rintro (read | read) <;> rw [hread] at read <;> cases read
        exact ⟨_, rfl⟩
  | ok settings =>
      rw [hread] at happly
      cases hdraft : Draft.ofTarget config name none with
      | error error =>
          simp only [hdraft] at happly
          have hwords := Draft.not_escapes_of_ofTarget hcheck hdraft
          rw [RefusedBy, bind_apply, happly]
          refine iff_of_false (fun h => hwords (refusedBy_throw_iff (s := host) |>.mp h)) ?_
          rintro (read | ⟨-, replayed, -, -⟩)
          · rw [hread] at read
            cases read
          · rw [hdraft] at replayed
            cases replayed
      | ok draft =>
          simp only [hdraft] at happly
          rw [refusedBy_bind_of_ok happly, hnext draft settings hread hdraft, escapes_resolve_iff]
          constructor
          · exact fun h => .draft hread hdraft h.1 h.2
          · rintro (read | ⟨read, replayed, pending, stuck⟩)
            · rw [hread] at read
              cases read
            · cases hread.symm.trans read
              cases hdraft.symm.trans replayed
              exact ⟨pending, stuck⟩

theorem escapes_probe_iff (hcheck : Config.check config = .ok ()) :
    RefusedBy Error.Escapes (probe config root name) host
      ↔ Unresolvable config root name host := by
  refine escapes_prepare_bind_iff hcheck fun draft settings hread hdraft => ?_
  rw [refusedBy_bind_pure_iff, Toolchain.escapes_onHost_iff]

/-- Why a target is refused in words that are not the program's own, when it is generated. -/
inductive Ungenerable (config : Json) (root : Path) (name : String) (output : Option String)
    (mode : WriteMode) (host : Host) : Prop
  /-- Its output path can lead nowhere. -/
  | place {fault : Path.Fault}
      (led : outputOf config root host.workingDirectory name output = .error (.path fault)) :
      Ungenerable config root name output mode host
  /-- Its declarations cannot be resolved. -/
  | module {path : Path} (led : outputOf config root host.workingDirectory name output = .ok path)
      (unresolvable : Unresolvable config root name host) :
      Ungenerable config root name output mode host
  /-- Its module is there, and the file cannot be brought up to date. -/
  | file {path : Path} {module text : String} {probed : Host}
      (led : outputOf config root host.workingDirectory name output = .ok path)
      (made : moduleOf config root name host = .ok (module, text) probed)
      (unwritable : Artifact.Unwritable host.tree host.workingDirectory path text mode) :
      Ungenerable config root name output mode host

end Generation

end HeaderBind
