import HeaderBind.Proofs.Compiler
import HeaderBind.Proofs.Toolchain

/-!
# `HeaderBind.Proofs.Stages`: the stages of a probe in order

A probe looks for its compiler and then has three commands to launch (`plan`). They are launched one
after another, each only after the process before it succeeded (`Ended`). One step is
`execute_apply`: the command is recorded and launched, and the next answer decides. `ended_runAll`
is the induction over any number of stages, and `stages_of_found` says that a probe is such a run:
the second search for the compiler finds the one that is kept.

`outcome_probe` puts this together with what a probe does to the files. There are three ways to end
that are no failure of a stage. A compiler that cannot be looked for (`Compiler.Unsearchable`) ends
a probe with an error of the file system, before anything is launched: `not_compileStage_longPath`.
A command with a zero character in a word is recorded and not launched. And a process may print what
is no text.
-/

set_option autoImplicit false

namespace HeaderBind

open Effect

/-- Why a process leaves no output to go on with. -/
inductive Launch.Failure where
  | failed (reason : String)
  | garbled (fault : Utf8.Fault)

/-- What a process comes to: its output, or why there is none. -/
def Launch.outcome : Launch → Except Failure String
  | .finished status output diagnostics =>
    if status = 0 then .ok output
    else .error (.failed (Toolchain.failureReason status output diagnostics))
  | .failed reason => .error (.failed reason)
  | .garbled fault => .error (.garbled fault)

/-- The error that a stage ends with. An output that is no text is no failure of the stage. -/
def Launch.Failure.error (stage : Stage) (command : List String) : Failure → Error
  | failed reason => .toolchain stage (.failed (ShellWord.join command) reason)
  | garbled fault => .encoding fault

/-- The answer of the process that is launched after `n` others. -/
def Host.answer (host : Host) (n : Nat) : Launch :=
  host.answers[n]?.getD .silent

/-- The bench after commands were recorded. -/
def Bench.recording (commands : List (List String)) (bench : Bench) : Bench :=
  { bench with recorded := bench.recorded ++ commands.map ShellWord.join }

/-- The bench after commands were recorded and launched one after another. -/
def Bench.launching (commands : List (List String)) (bench : Bench) : Bench :=
  { bench.recording commands with
    host := { bench.host with
      launched := bench.host.launched ++ commands
      answers := bench.host.answers.drop commands.length } }

@[simp]
theorem Bench.recording_nil (bench : Bench) : bench.recording [] = bench := by
  simp [recording]

@[simp]
theorem Bench.launching_nil (bench : Bench) : bench.launching [] = bench := by
  simp [launching]

theorem Bench.launching_cons (command : List String) (commands : List (List String))
    (bench : Bench) :
    bench.launching (command :: commands) = (bench.launching [command]).launching commands := by
  simp [launching, recording]

/-- Behind a command, the answers are those of the later processes. -/
theorem Bench.answer_launching (command : List String) (bench : Bench) :
    (bench.launching [command]).host.answer = fun n => bench.host.answer (n + 1) := by
  funext n
  simp [launching, Host.answer]

namespace Toolchain

/-! ### One stage after another -/

/-- One stage: its command is recorded and launched, and the next answer decides. A command that
cannot be launched is recorded all the same. -/
theorem execute_apply (stage : Stage) (command : List String) (bench : Bench) :
    execute stage command bench
      = if isLaunchable command then
          match (bench.host.answer 0).outcome with
          | .ok output => .ok output (bench.launching [command])
          | .error failure => .error (failure.error stage command) (bench.launching [command])
        else .error (.ofPath .zeroCharacter) (bench.recording [command]) := by
  rw [execute, bind_apply]
  show (demandLaunchable command >>= _) (bench.recording [command]) = _
  rw [bind_apply, demandLaunchable]
  cases isLaunchable command with
  | false => rfl
  | true =>
      -- The answer for the process is the first one that is left.
      have hlaunched : launch command (bench.recording [command])
          = .ok (bench.host.answer 0) (bench.launching [command]) := by
        show EStateM.Result.ok (bench.host.answers.headD .silent) _ = _
        rw [List.headD_eq_head?_getD, List.head?_eq_getElem?, Bench.launching,
          List.length_singleton, List.drop_one]
        rfl
      show (launch command >>= _) (bench.recording [command]) = _
      rw [bind_apply, hlaunched]
      cases bench.host.answer 0 with
      | failed reason => rfl
      | garbled fault => rfl
      | finished status output diagnostics =>
          by_cases hstatus : status = 0 <;> simp only [Launch.outcome, hstatus] <;> rfl

/-- Stages with their commands, run one after another. The output is that of the last one. -/
def runAll : Stage × List String → List (Stage × List String) → BenchAction String
  | (stage, command), [] => execute stage command
  | (stage, command), next :: rest => do
    discard <| execute stage command
    runAll next rest

/-- Stages that succeed one after another: their commands can be launched, and their processes leave
an output. -/
structure Passes (answer : Nat → Launch) (steps : List (Stage × List String)) : Prop where
  launchable : ∀ step ∈ steps, isLaunchable step.2 = true
  outputs : ∀ n < steps.length, ∃ output, (answer n).outcome = .ok output

theorem Passes.nil (answer : Nat → Launch) : Passes answer [] :=
  ⟨by simp, by simp⟩

theorem Passes.cons {answer : Nat → Launch} {steps : List (Stage × List String)}
    (h : Passes (fun n => answer (n + 1)) steps) {step : Stage × List String}
    (hstep : isLaunchable step.2 = true) {output : String}
    (hfirst : (answer 0).outcome = .ok output) : Passes answer (step :: steps) where
  launchable := List.forall_mem_cons.mpr ⟨hstep, h.launchable⟩
  outputs := fun n hn => by
    cases n with
    | zero => exact ⟨output, hfirst⟩
    | succ n => exact h.outputs n (Nat.lt_of_succ_lt_succ hn)

/-- How a run of planned stages ends, by the commands that were launched, the command that was
recorded only, and the result. -/
inductive Ended (answer : Nat → Launch) (planned : List (Stage × List String)) :
    List (List String) → List (List String) → Except Error String → Prop
  /-- All processes succeed. The output is that of the last one. -/
  | printed (front : List (Stage × List String)) {stage : Stage} {command : List String}
      {output : String} (split : planned = front ++ [(stage, command)])
      (passed : Passes answer front) (launchable : isLaunchable command = true)
      (last : (answer front.length).outcome = .ok output) :
      Ended answer planned (planned.map Prod.snd) [] (.ok output)
  /-- A process fails after those in front of it succeeded, and the later ones are not launched. -/
  | failed (front : List (Stage × List String)) {later : List (Stage × List String)} {stage : Stage}
      {command : List String} {reason : String}
      (split : planned = front ++ (stage, command) :: later)
      (passed : Passes answer front) (launchable : isLaunchable command = true)
      (fails : (answer front.length).outcome = .error (.failed reason)) :
      Ended answer planned (front.map Prod.snd ++ [command]) []
        (.error (.toolchain stage (.failed (ShellWord.join command) reason)))
  /-- What a process prints is no text. -/
  | garbled (front : List (Stage × List String)) {later : List (Stage × List String)}
      {stage : Stage} {command : List String} {fault : Utf8.Fault}
      (split : planned = front ++ (stage, command) :: later)
      (passed : Passes answer front) (launchable : isLaunchable command = true)
      (fails : (answer front.length).outcome = .error (.garbled fault)) :
      Ended answer planned (front.map Prod.snd ++ [command]) [] (.error (.encoding fault))
  /-- A word of a command has a zero character in it. -/
  | refused (front : List (Stage × List String)) {later : List (Stage × List String)}
      {stage : Stage} {command : List String}
      (split : planned = front ++ (stage, command) :: later)
      (passed : Passes answer front) (unlaunchable : isLaunchable command = false) :
      Ended answer planned (front.map Prod.snd) [command] (.error (.ofPath .zeroCharacter))

/-- A stage that succeeds in front of a run. -/
theorem Ended.cons {answer : Nat → Launch} {planned : List (Stage × List String)}
    {launched refused : List (List String)} {result : Except Error String} {output : String}
    (h : Ended (fun n => answer (n + 1)) planned launched refused result)
    {step : Stage × List String} (hstep : isLaunchable step.2 = true)
    (hfirst : (answer 0).outcome = .ok output) :
    Ended answer (step :: planned) (step.2 :: launched) refused result := by
  cases h with
  | printed front split passed launchable last =>
      exact .printed (step :: front) (congrArg (List.cons step) split) (passed.cons hstep hfirst)
        launchable last
  | failed front split passed launchable fails =>
      exact .failed (step :: front) (congrArg (List.cons step) split) (passed.cons hstep hfirst)
        launchable fails
  | garbled front split passed launchable fails =>
      exact .garbled (step :: front) (congrArg (List.cons step) split) (passed.cons hstep hfirst)
        launchable fails
  | refused front split passed unlaunchable =>
      exact .refused (step :: front) (congrArg (List.cons step) split) (passed.cons hstep hfirst)
        unlaunchable

/-- A first stage that ends the run, whatever was planned behind it. -/
theorem Ended.of_failure {answer : Nat → Launch} {failure : Launch.Failure} {stage : Stage}
    {command : List String} (launchable : isLaunchable command = true)
    (hfirst : (answer 0).outcome = .error failure) (later : List (Stage × List String)) :
    Ended answer ((stage, command) :: later) [command] []
      (.error (failure.error stage command)) := by
  cases failure with
  | failed reason => exact .failed [] rfl (.nil _) launchable hfirst
  | garbled fault => exact .garbled [] rfl (.nil _) launchable hfirst

/-- A run launches a prefix of its commands and ends as the answers say. -/
theorem ended_runAll (first : Stage × List String) (rest : List (Stage × List String))
    (bench : Bench) :
    ∃ launched refused,
      Ended bench.host.answer (first :: rest) launched refused
        (answered (runAll first rest bench)) ∧
      left (runAll first rest bench) = (bench.launching launched).recording refused := by
  induction rest generalizing first bench with
  | nil =>
      obtain ⟨stage, command⟩ := first
      rw [runAll, execute_apply]
      cases hlaunchable : isLaunchable command with
      | false => exact ⟨[], [command], .refused [] rfl (.nil _) hlaunchable, by simp [left]⟩
      | true =>
          refine ⟨[command], [], ?_⟩
          cases hanswer : (bench.host.answer 0).outcome with
          | ok output => exact ⟨.printed [] rfl (.nil _) hlaunchable hanswer, by simp [left]⟩
          | error failure => exact ⟨.of_failure hlaunchable hanswer [], by simp [left]⟩
  | cons next rest ih =>
      obtain ⟨stage, command⟩ := first
      rw [runAll, discard_bind_apply, execute_apply]
      cases hlaunchable : isLaunchable command with
      | false => exact ⟨[], [command], .refused [] rfl (.nil _) hlaunchable, by simp [left]⟩
      | true =>
          cases hanswer : (bench.host.answer 0).outcome with
          | error failure =>
              exact ⟨[command], [], .of_failure hlaunchable hanswer (next :: rest), by simp [left]⟩
          | ok output =>
              -- The rest sees the answers behind the first one.
              obtain ⟨launched, refused, hended, hleft⟩ := ih next (bench.launching [command])
              rw [Bench.answer_launching] at hended
              refine ⟨command :: launched, refused, hended.cons hlaunchable hanswer, hleft.trans ?_⟩
              rw [← Bench.launching_cons]

/-! ### The stages of a probe -/

/-- The three stages with their commands: the compiler reads the source and makes the object, the
same compiler makes the executable of that object, and the executable is run. -/
def plan (settings : ToolchainSettings) (found : String) (files : ProbeFiles) :
    List (Stage × List String) :=
  [(.compile, [found, "-c", files.source.text, "-o", files.object.text] ++
      settings.includeDirectories.flatMap (fun directory => ["-I", directory]) ++
      settings.compilerFlags),
    (.link, [found, files.object.text, "-o", files.executable.text] ++ settings.linkerFlags),
    (.run, [files.executable.text])]

/-- What the compiler is about to read is noted, and nothing else changes. -/
theorem exists_noteCompiled (source : Path) (command : List String) (bench : Bench) :
    ∃ compiled, noteCompiled source command bench
      = .ok () { bench with host := { bench.host with compiled := compiled } } := by
  have hmodify : ∀ change : Bench → Bench,
      (modify change : BenchAction Unit) bench = .ok () (change bench) := fun _ => rfl
  rw [noteCompiled, hmodify]
  cases isLaunchable command with
  | false => exact ⟨bench.host.compiled, rfl⟩
  | true =>
      cases bench.host.readBytes source with
      | error fault => exact ⟨bench.host.compiled, rfl⟩
      | ok content => exact ⟨_, rfl⟩

/-- Behind the first stage, the compiler is the one that is kept. -/
theorem linked_of_found {settings : ToolchainSettings} {bench : Bench} {found : String}
    (h : bench.found = some found) (files : ProbeFiles) :
    (do
      let again ← compiler settings
      discard <| execute .link (linkCommand settings again files)
      execute .run (runCommand files) : BenchAction String) bench
      = runAll (.link, linkCommand settings found files) [(.run, runCommand files)] bench := by
  -- Keeping the same compiler once more changes nothing.
  have hkept : { bench with found := some found } = bench := by
    rw [← h]
  have hcompiler : compilerOf settings bench = .ok found := by
    rw [compilerOf, h]
  rw [bind_apply, compiler_apply, hcompiler]
  dsimp only
  rw [hkept]
  rfl

/-- Once there is a compiler, a probe is the run of its three stages. -/
theorem stages_of_found {settings : ToolchainSettings} {bench : Bench} {found : String}
    (h : compilerOf settings bench = .ok found) (files : ProbeFiles) :
    ∃ first rest compiled, plan settings found files = first :: rest ∧
      stages settings files bench = runAll first rest
        { bench with
          host := { bench.host with compiled := compiled }
          found := some found } := by
  obtain ⟨compiled, hnoted⟩ := exists_noteCompiled files.source
    (compileCommand settings found files) { bench with found := some found }
  refine ⟨_, _, compiled, rfl, ?_⟩
  have hkept := keeps_execute .compile (compileCommand settings found files)
    { bench with
      host := { bench.host with compiled := compiled }
      found := some found }
  rw [stages, bind_apply, compiler_apply, h]
  dsimp only
  rw [bind_apply, hnoted]
  dsimp only
  rw [runAll, discard_bind_apply, discard_bind_apply, ← compileCommand]
  generalize execute .compile (compileCommand settings found files) _ = result at hkept ⊢
  cases result with
  | error error after => rfl
  -- The first stage has not changed what is kept, so the second search finds it.
  | ok output after => exact linked_of_found (congrArg Prod.snd hkept) files

/-- How a probe ends, by the commands that were launched, the command that was recorded only, and
the result. -/
inductive Outcome (settings : ToolchainSettings) (files : ProbeFiles) (bench : Bench) :
    List (List String) → List (List String) → Except Error String → Prop
  /-- There is no compiler, which is a failure to compile. -/
  | noCompiler {tried : List String}
      (search : compilerOf settings bench = .error (.toolchain .compile (.noCompiler tried))) :
      Outcome settings files bench [] [] (.error (.toolchain .compile (.noCompiler tried)))
  /-- The search for the compiler comes to a name that cannot be looked for. -/
  | unsearchable {name : String} {fault : FileTree.Fault}
      (search : compilerOf settings bench = .error (.file fault))
      (isNamed : name ∈ Compiler.named bench.host settings.compiler.nonEmptyText?
        settings.candidates)
      (unsearchable : Compiler.Unsearchable bench.host name fault) :
      Outcome settings files bench [] [] (.error (.file fault))
  /-- There is a compiler, and the three stages are run. -/
  | ran {found : String} {launched refused : List (List String)} {result : Except Error String}
      (search : compilerOf settings bench = .ok found)
      (ended : Ended bench.host.answer (plan settings found files) launched refused result) :
      Outcome settings files bench launched refused result

/-- At most one command is recorded only, and that is one that cannot be launched. -/
theorem Outcome.refused_spec {settings : ToolchainSettings} {files : ProbeFiles} {bench : Bench}
    {launched refused : List (List String)} {result : Except Error String}
    (h : Outcome settings files bench launched refused result) :
    refused.length ≤ 1 ∧ ∀ command ∈ refused, isLaunchable command = false := by
  cases h with
  | noCompiler _ => simp
  | unsearchable _ _ _ => simp
  | ran _ ended =>
      cases ended with
      | refused front split passed unlaunchable => simpa using unlaunchable
      | _ => simp

/-- A vain search for the compiler launches nothing. -/
theorem outcome_of_compilerOf_error {settings : ToolchainSettings} {bench : Bench} {error : Error}
    (h : compilerOf settings bench = .error error) (files : ProbeFiles) :
    Outcome settings files bench [] [] (.error error) := by
  have hresolve : Compiler.resolve bench.host settings.compiler.nonEmptyText? settings.candidates
      = .error error := by
    cases hfound : bench.found with
    | some found =>
        rw [compilerOf, hfound] at h
        cases h
    | none =>
        rw [compilerOf, hfound] at h
        exact h
  rw [Compiler.resolve_eq] at hresolve
  split at hresolve
  · cases hresolve
  · cases hresolve
    exact .noCompiler h
  · rename_i fault hsearch
    cases hresolve
    have hdecided : Compiler.DecidedBy bench.host (Compiler.named bench.host
        settings.compiler.nonEmptyText? settings.candidates) (.error fault) :=
      (Compiler.findFirst_eq_iff (by simp)).mp hsearch
    obtain ⟨front, name, later, hsplit, -, hfind⟩ := hdecided
    have hnamed : name ∈ Compiler.named bench.host settings.compiler.nonEmptyText?
        settings.candidates := by
      simp [hsplit]
    exact .unsearchable h hnamed (Compiler.find_eq_error_iff.mp hfind)

/-- Without a compiler, a probe ends in front of its stages. -/
theorem probe_of_compilerOf_error {settings : ToolchainSettings} {source : String} {bench : Bench}
    {error : Error} (h : compilerOf settings (prepared source bench) = .error error) :
    probe settings source bench
      = .error error (cleaned (scratchDirectory bench.host) (prepared source bench)) := by
  rw [probe_apply, stages, bind_apply, compiler_apply, h]

/-- What the stages of a probe come to, and what becomes of the bench. -/
theorem outcome_stages (settings : ToolchainSettings) (files : ProbeFiles) (bench : Bench) :
    ∃ launched refused compiled,
      Outcome settings files bench launched refused (answered (stages settings files bench)) ∧
      left (stages settings files bench)
        = { (bench.launching launched).recording refused with
            host := { (bench.launching launched).host with compiled := compiled }
            found := (compilerOf settings bench).toOption } := by
  cases hcompiler : compilerOf settings bench with
  | error error =>
      have hstages : stages settings files bench = .error error bench := by
        rw [stages, bind_apply, compiler_apply, hcompiler]
      -- A search that fails was made, so nothing had been kept.
      have hnone : bench.found = none := by
        cases hfound : bench.found with
        | none => rfl
        | some found =>
            rw [compilerOf, hfound] at hcompiler
            cases hcompiler
      refine ⟨[], [], bench.host.compiled, ?_⟩
      rw [hstages]
      refine ⟨outcome_of_compilerOf_error hcompiler files, ?_⟩
      show bench = _
      simp [Except.toOption, ← hnone]
  | ok found =>
      obtain ⟨first, rest, compiled, hplan, hstages⟩ := stages_of_found hcompiler files
      rw [hstages]
      obtain ⟨launched, refused, hended, hleft⟩ := ended_runAll first rest
        { bench with
          host := { bench.host with compiled := compiled }
          found := some found }
      rw [← hplan] at hended
      exact ⟨launched, refused, compiled, .ran hcompiler hended, hleft⟩

/-- Cleaning up makes no difference to what a probe comes to. -/
theorem answered_probe (settings : ToolchainSettings) (source : String) (bench : Bench) :
    answered (probe settings source bench)
      = answered (stages settings (probeFiles bench.host.family (scratchDirectory bench.host))
          (prepared source bench)) := by
  rw [probe_apply]
  cases stages settings _ (prepared source bench) <;> rfl

/-- Whether the stages succeed or not, the bench they leave is cleaned up. -/
theorem left_probe (settings : ToolchainSettings) (source : String) (bench : Bench) :
    left (probe settings source bench)
      = cleaned (scratchDirectory bench.host)
          (left (stages settings (probeFiles bench.host.family (scratchDirectory bench.host))
            (prepared source bench))) := by
  rw [probe_apply]
  cases stages settings _ (prepared source bench) <;> rfl

/-- A probe launches a prefix of its three commands, each after the process before it succeeded. It
answers what the last process printed, or fails at the stage whose process failed, unless it ends in
one of the three ways that are no failure of a stage. The files are as before in any case. The
commands are recorded as they are launched, and behind them the one that cannot be launched, if it
comes to that. A compiler that was found is kept. -/
theorem outcome_probe (settings : ToolchainSettings) (source : String) (bench : Bench) :
    ∃ launched refused after,
      Outcome settings (probeFiles bench.host.family (scratchDirectory bench.host))
        (prepared source bench) launched refused (answered (probe settings source bench)) ∧
      left (probe settings source bench) = after ∧
      after.host.launched = bench.host.launched ++ launched ∧
      after.host.answers = bench.host.answers.drop launched.length ∧
      after.recorded = bench.recorded ++ launched.map ShellWord.join
        ++ refused.map ShellWord.join ∧
      after.found = (compilerOf settings (prepared source bench)).toOption ∧
      after.host.tree = bench.host.tree := by
  have hkept : (left (probe settings source bench)).still = bench.still :=
    keeps_probe settings source bench
  have htree := congrArg Host.tree hkept
  obtain ⟨launched, refused, compiled, houtcome, hleft⟩ := outcome_stages settings
    (probeFiles bench.host.family (scratchDirectory bench.host)) (prepared source bench)
  rw [left_probe, hleft] at htree ⊢
  rw [answered_probe]
  -- Cleaning up changes the files only, so the rest is what the stages left.
  exact ⟨launched, refused, _, houtcome, rfl, rfl, rfl, rfl, rfl, htree⟩

/-- The settings with too long a path for the compiler. -/
def longSettings : ToolchainSettings where
  compiler := .string Compiler.longPath
  candidates := []
  compilerFlags := []
  linkerFlags := []
  includeDirectories := []

theorem compilerOf_longSettings {bench : Bench} (h : bench.found = none) :
    compilerOf longSettings bench = .error (.file (.tooLong Compiler.longPath)) := by
  have hfilled : longSettings.compiler.nonEmptyText? = some Compiler.longPath := by
    have hnonempty : ¬ Compiler.longPath.isEmpty = true := by decide +kernel
    rw [longSettings, Json.nonEmptyText?, if_neg hnonempty]
  rw [compilerOf, h, hfilled]
  exact Compiler.resolve_longPath bench.host longSettings.candidates

/-- With too long a path, and no command to be found, there is no compiler. Nothing is launched, but
the probe does not end with a failure to compile. -/
theorem not_compileStage_longPath :
    let bench := Bench.ofHost { Compiler.bareHost with commands := [] }
    (∀ name ∈ ["cc", "gcc", "clang"], Compiler.find bench.host name = .ok none) ∧
      answered (probe longSettings "" bench) = .error (.file (.tooLong Compiler.longPath)) ∧
      (left (probe longSettings "" bench)).recorded = [] := by
  intro bench
  have hsearch : compilerOf longSettings (prepared "" bench)
      = .error (.file (.tooLong Compiler.longPath)) := compilerOf_longSettings rfl
  refine ⟨by decide +kernel, ?_⟩
  rw [probe_of_compilerOf_error hsearch]
  exact ⟨rfl, rfl⟩

end Toolchain

end HeaderBind
