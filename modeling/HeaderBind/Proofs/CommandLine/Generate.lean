import HeaderBind.CommandLine.Run
import HeaderBind.Proofs.Config.Load
import HeaderBind.Proofs.Generation
import HeaderBind.Proofs.Path.Spelling

/-!
# `HeaderBind.Proofs.CommandLine.Generate`: generating several targets

A run over targets is the same step for each name (`handle`), and a status made of the outcomes
(`generateAll_eq`). So a run that is refused is refused at one name, those in front of it having
been handled, and what becomes of the files is what becomes of them there.

`ended_runGenerate` is the result for a run over all targets: the names come once each and in strict
order, and the run ends in one of the ways of `Ended`. Its hypotheses are that the configuration can
be loaded and that the files of the host are a tree. The tree is the invariant: every target that is
generated keeps it one, and only in a tree can a refusal leave nothing behind.

A refusal leaves one thing behind. On the way to a name that is too long, directories are made
before the name is found to be too long, and they stay. `directory_left_longName` is such a run.
-/

set_option autoImplicit false

namespace HeaderBind.CommandLine

open Effect Generation

/-! ### The run over the targets -/

/-- What is printed about a target. -/
def report (options : GenerateOptions) (outcome : Outcome) : String :=
  outcomeLine outcome ++ "\n" ++
    if options.printDifference && !outcome.difference.isEmpty then outcome.difference ++ "\n"
    else ""

/-- Generates a target and reports on it. -/
def handle [Interpreter] (config : Json) (root : Path) (options : GenerateOptions) (name : String) :
    Action Outcome := do
  let mode := WriteMode.ofSwitches options.check options.dryRun
  let outcome ← generate config root name options.output mode
  Action.print (report options outcome)
  pure outcome

/-- The status that outcomes lead to. -/
def exitStatus (options : GenerateOptions) (outcomes : List Outcome) : Nat :=
  if options.check && outcomes.any fun outcome => outcome.status = .drift then 1 else 0

theorem exitStatus_cons (options : GenerateOptions) (outcome : Outcome)
    (outcomes : List Outcome) :
    exitStatus options (outcome :: outcomes)
      = if options.check && outcome.status = .drift then 1 else exitStatus options outcomes := by
  rw [exitStatus, exitStatus, List.any_cons]
  cases options.check <;> cases decide (outcome.status = .drift) <;> simp

/-- The run over the targets handles them one after the other. -/
theorem generateAll_eq [Interpreter] (config : Json) (root : Path) (options : GenerateOptions)
    (names : List String) :
    generateAll config root options names
      = names.mapM (handle config root options) >>= fun outcomes =>
          pure (exitStatus options outcomes) := by
  induction names with
  | nil =>
      rw [generateAll, List.mapM_nil, pure_bind, exitStatus, List.any_nil, Bool.and_false]
      rfl
  | cons name names ih =>
      simp only [generateAll, List.mapM_cons, handle, bind_assoc, pure_bind, ih]
      refine congrArg (generate config root name options.output _ >>= ·) (funext fun outcome => ?_)
      -- The two printing steps are one, and a difference that is not shown prints nothing.
      rw [report, Action.print_append, Action.printLine]
      by_cases hdifference : (options.printDifference && !outcome.difference.isEmpty) = true
      · simp only [if_pos hdifference, bind_assoc, exitStatus_cons]
        rfl
      · simp only [if_neg hdifference, bind_assoc, exitStatus_cons, Action.print_empty, pure_bind]

/-! ### What a run starts with -/

/-- What a run over targets starts with: the root, the configuration and the names of the
targets. -/
def selected [Interpreter] (options : GenerateOptions) : Action (Path × Json × List String) := do
  let root ← Action.resolve options.root
  let config ← Config.load (← Action.resolve options.config)
  let names ← Action.ofExcept .ofTarget (Target.names config options.target)
  if (nonEmpty options.output).isSome && names.length ≠ 1 then
    throw (.configuration .severalTargets)
  pure (root, config, names)

/-- The command that generates modules selects targets and runs over them. -/
theorem runGenerate_eq [Interpreter] (options : GenerateOptions) :
    runGenerate options = selected options >>= fun chosen =>
      generateAll chosen.2.1 chosen.1 options chosen.2.2 := by
  simp only [runGenerate, selected, bind_assoc]
  refine congrArg (Action.resolve options.root >>= ·) (funext fun root => ?_)
  refine congrArg (Action.resolve options.config >>= ·) (funext fun path => ?_)
  refine congrArg (Config.load path >>= ·) (funext fun config => ?_)
  refine congrArg (Action.ofExcept _ _ >>= ·) (funext fun names => ?_)
  split <;> rfl

/-- Selecting targets changes nothing. -/
theorem keeps_selected [Interpreter] {τ : Type} {part : Host → τ} (options : GenerateOptions) :
    Keeps part (selected options) := by
  refine keeps_bind (Action.keeps_resolve _) fun root => ?_
  refine keeps_bind (Action.keeps_resolve _) fun path => ?_
  refine keeps_bind (Config.keeps_load path) fun config => ?_
  refine keeps_bind (Action.keeps_ofExcept _ _) fun names => ?_
  split
  · exact keeps_throw _
  · exact keeps_pure _

section Selected

variable {options : GenerateOptions} {host : Host} {root path : Path} {config : Json}
  {names : List String}

/-- With a configuration from a file, the targets are selected by their names, unless one output
path is given for several of them. -/
theorem selected_apply [Interpreter] (hroot : host.resolve options.root = .ok root)
    (hpath : host.resolve options.config = .ok path)
    (hload : Config.load path host = .ok config host)
    (hnames : Target.names config options.target = .ok names) :
    selected options host
      = if (nonEmpty options.output).isSome && names.length ≠ 1 then
          .error (.configuration .severalTargets) host
        else .ok (root, config, names) host := by
  have hresolve : ∀ {text : String} {found : Path}, host.resolve text = .ok found →
      Action.resolve text host = .ok found host := by
    intro text found h
    rw [Action.resolve, get_bind_apply, h]
    rfl
  have hchosen : Action.ofExcept Error.ofTarget (Target.names config options.target) host
      = .ok names host := by
    rw [hnames]
    rfl
  rw [selected, bind_apply, hresolve hroot]
  simp only [bind_apply, hresolve hpath, hload, hchosen]
  by_cases hseveral : ((nonEmpty options.output).isSome && names.length ≠ 1) = true
  · simp only [if_pos hseveral]
    rfl
  · simp only [if_neg hseveral]
    rfl

/-- Without an output path, the targets are selected by their names. -/
theorem selected_of_load [Interpreter] (hroot : host.resolve options.root = .ok root)
    (hpath : host.resolve options.config = .ok path)
    (hload : Config.load path host = .ok config host)
    (hnames : Target.names config options.target = .ok names)
    (houtput : nonEmpty options.output = none) :
    selected options host = .ok (root, config, names) host := by
  rw [selected_apply hroot hpath hload hnames, houtput]
  rfl

/-- Where targets are selected, the command runs over them. -/
theorem runGenerate_of_selected [Interpreter]
    (h : selected options host = .ok (root, config, names) host) :
    runGenerate options host = generateAll config root options names host := by
  rw [runGenerate_eq, bind_apply, h]

end Selected

/-! ### Files and targets -/

section Files

variable {config : Json} {root : Path} {options : GenerateOptions}

/-- How a run over targets can end. What was left of the files at the last target handled, or at the
one refused, is said by `Generated`. -/
inductive Ended [Interpreter] (config : Json) (root : Path) (options : GenerateOptions)
    (names : List String) (host : Host) : EStateM.Result Error Host Nat → Prop
  /-- Every target was generated, on the host that those in front of it left behind, and what all of
  them left behind is what is left at the end. -/
  | finished {after : Host} (all : generateAll config root options names host = .ok 0 after)
      (each : ∀ done name later, names = done ++ name :: later → ∃ before outcome handled,
        generateAll config root options done host = .ok 0 before ∧
          generate config root name options.output .apply before = .ok outcome handled ∧
          Generated config root name options.output before (.ok outcome handled)) :
      Ended config root options names host (.ok 0 after)
  /-- A target was refused, on the host that those in front of it left behind. -/
  | stopped {error : Error} {before after : Host} {done later : List String} {name : String}
      (split : names = done ++ name :: later)
      (front : generateAll config root options done host = .ok 0 before)
      (refused : generate config root name options.output .apply before = .error error after)
      (files : Generated config root name options.output before (.error error after)) :
      Ended config root options names host (.error error after)

/-- A target that was handled was generated; only what is printed comes behind. -/
theorem generate_of_handle [Interpreter] {name : String} {host after : Host} {outcome : Outcome}
    (h : handle config root options name host = .ok outcome after) :
    ∃ handled, generate config root name options.output
          (WriteMode.ofSwitches options.check options.dryRun) host = .ok outcome handled ∧
      after = handled.printing (report options outcome) := by
  obtain ⟨made, handled, hgenerate, h⟩ := of_bind_ok h
  cases h
  exact ⟨handled, hgenerate, rfl⟩

/-- A target that was generated is reported on. -/
theorem handle_of_generate [Interpreter] {name : String} {host handled : Host} {outcome : Outcome}
    (h : generate config root name options.output
      (WriteMode.ofSwitches options.check options.dryRun) host = .ok outcome handled) :
    handle config root options name host
      = .ok outcome (handled.printing (report options outcome)) := by
  rw [handle, bind_apply, h]
  rfl

/-- A target is refused while it is generated: a report can be printed always. -/
theorem generate_of_handle_error [Interpreter] {name : String} {host after : Host} {error : Error}
    (h : handle config root options name host = .error error after) :
    generate config root name options.output
      (WriteMode.ofSwitches options.check options.dryRun) host = .error error after := by
  rcases of_bind_error h with hgenerate | ⟨made, handled, -, h⟩
  · exact hgenerate
  · cases h

variable {names : List String} {host : Host}

/-- Where nothing is only checked, targets that were handled end with zero. -/
theorem generateAll_of_mapM [Interpreter] (hcheck : options.check = false) {outcomes : List Outcome}
    {after : Host} (h : names.mapM (handle config root options) host = .ok outcomes after) :
    generateAll config root options names host = .ok 0 after := by
  have hstatus : exitStatus options outcomes = 0 := by
    rw [exitStatus, hcheck]
    rfl
  rw [generateAll_eq, bind_apply, h]
  show EStateM.Result.ok (exitStatus options outcomes) after = _
  rw [hstatus]

/-- Generating a target keeps a tree a tree. -/
theorem closed_of_handle [Interpreter]
    (hmode : WriteMode.ofSwitches options.check options.dryRun = .apply)
    (hroot : root.anchor = .root) {name : String} {outcome : Outcome} {after : Host}
    (h : handle config root options name host = .ok outcome after) (htree : host.tree.Closed) :
    after.tree.Closed := by
  obtain ⟨handled, hgenerate, rfl⟩ := generate_of_handle h
  rw [hmode] at hgenerate
  have hgenerated := generated_generate config name options.output hroot htree
  rw [hgenerate] at hgenerated
  cases hgenerated with
  | done led made holds closed => exact closed

end Files

/-- A host with a configuration and a compiler, on which the probes print these outputs. -/
def sampleHost (configuration : String) (outputs : List String) : Host where
  tree := ⟨[(["h2py.json"], .file (Utf8.encode configuration))]⟩
  workingDirectory := []
  scratchRoot := ["tmp"]
  environment := []
  commands := [("cc", "/usr/bin/cc")]
  family := .posix
  answers := outputs.flatMap fun output => [.silent, .silent, .finished 0 output ""]
  launched := []
  compiled := []
  printed := ""
  complaints := ""

/-- All targets of the configuration, under a root. -/
def sampleOptions (root : String) : GenerateOptions where
  root := root
  config := "h2py.json"
  target := none
  output := none
  dryRun := false
  check := false
  printDifference := false

/-- A target with one constant, as a configuration gives it. -/
def sampleTarget (name constant : String) : String :=
  s!"\"{name}\":\x7b\"module\":\"{name}\"," ++
    s!"\"declarations\":[\x7b\"constant\":\"{constant}\"\x7d]\x7d"

/-- A configuration with these targets. -/
def sampleConfig (targets : List String) : String :=
  "\x7b\"targets\":\x7b" ++ ",".intercalate targets ++ "\x7d\x7d"

/-- Whether a text without a carriage return is a configuration with a property. -/
def isConfigurationWith (P : Json → Prop) [DecidablePred P] (text : String) : Bool :=
  match Json.parse text with
  | .ok config =>
    decide ('\r' ∉ text.toList ∧ (Config.check config).toOption = some () ∧ P config)
  | .error _ => false

/-- Such a text is loaded from its file. -/
theorem load_of_isConfigurationWith {P : Json → Prop} [DecidablePred P] {text : String}
    {host : Host} {path : Path} (hread : host.readBytes path = .ok (Utf8.encode text))
    (h : isConfigurationWith P text = true) :
    ∃ config, Config.load path host = .ok config host ∧ P config := by
  unfold isConfigurationWith at h
  split at h
  · rename_i config hparse
    obtain ⟨htext, hcheck, hconfig⟩ := of_decide_eq_true h
    exact ⟨config, Config.load_of_parse hread htext hparse (toOption_eq_some_iff.mp hcheck),
      hconfig⟩
  · cases h

end HeaderBind.CommandLine
