import HeaderBind.Proofs.CommandLine.Generate

/-!
# `HeaderBind.Proofs.CommandLine.Preview`: runs that only look

A run over targets can be asked to check the files, or to preview what it would do. Neither touches
them, and the two agree: from one host they are refused by one error at one target, or both return,
with outcomes that differ in the name of what is out of date only (`compared_runGenerate`).

The two runs print different reports, so from the second target on their hosts differ. They stay
`Alike`, and what was printed decides nothing (`related_handle`); that is the whole invariant. The
frame is apart from it: what a run that only looks leaves behind is the host it started on, but for
its processes and what it printed (`left_mapM`).
-/

set_option autoImplicit false

namespace HeaderBind.CommandLine

open Effect Generation

/-- The options of a run that checks, with the other switch as it may be. -/
def GenerateOptions.checking (options : GenerateOptions) (dryRun : Bool) : GenerateOptions :=
  { options with check := true, dryRun := dryRun }

/-- The options of a run that previews. -/
def GenerateOptions.previewing (options : GenerateOptions) : GenerateOptions :=
  { options with check := false, dryRun := true }

/-- Whether a run of these options only looks. -/
def GenerateOptions.OnlyLooks (options : GenerateOptions) : Prop :=
  WriteMode.ofSwitches options.check options.dryRun ≠ .apply

variable {config : Json} {root : Path} {options : GenerateOptions} {names : List String}
  {host after : Host}

/-- What a run starts with does not depend on the two switches. -/
theorem selected_checking [Interpreter] (options : GenerateOptions) (dryRun : Bool) :
    selected (options.checking dryRun) = selected options :=
  rfl

theorem selected_previewing [Interpreter] (options : GenerateOptions) :
    selected options.previewing = selected options :=
  rfl

/-! ### What a run leaves behind -/

/-- Handling a target adds its report to what was printed, and leaves everything else but the
processes. -/
theorem left_handle [Interpreter] (hlooks : options.OnlyLooks) {name : String} {outcome : Outcome}
    (h : handle config root options name host = .ok outcome after) :
    after.withoutProcesses = host.withoutProcesses.printing (report options outcome) := by
  obtain ⟨handled, hgenerate, rfl⟩ := generate_of_handle h
  have hkept := keeps_generate hlooks config root name options.output host
  rw [hgenerate] at hkept
  exact congrArg (fun kept : Host => kept.printing (report options outcome)) hkept

/-- Over a whole run the reports add up. -/
theorem left_mapM [Interpreter] (hlooks : options.OnlyLooks) {outcomes : List Outcome}
    (h : names.mapM (handle config root options) host = .ok outcomes after) :
    after.withoutProcesses
      = host.withoutProcesses.printing (String.join (outcomes.map (report options))) := by
  induction names generalizing host outcomes with
  | nil =>
      rw [List.mapM_nil] at h
      cases h
      exact (Host.printing_empty _).symm
  | cons name names ih =>
      rw [List.mapM_cons] at h
      obtain ⟨outcome, middle, hhandle, h⟩ := of_bind_ok h
      obtain ⟨others, last, hrest, h⟩ := of_bind_ok h
      cases h
      -- The report of the first target comes in front of those of the rest.
      rw [ih hrest, left_handle hlooks hhandle, List.map_cons, String.join_cons,
        Host.printing_append]

/-- A target that is refused in such a run leaves the files as the run found them. -/
theorem tree_of_refusal [Interpreter] (hlooks : options.OnlyLooks) {outcomes : List Outcome}
    {name : String} {before : Host} {error : Error}
    (hfront : names.mapM (handle config root options) host = .ok outcomes before)
    (hrefusal : generate config root name options.output
      (WriteMode.ofSwitches options.check options.dryRun) before = .error error after) :
    after.tree = host.tree := by
  have hkept := keeps_generate hlooks config root name options.output before
  rw [hrefusal] at hkept
  calc after.tree = before.tree := Host.tree_of_withoutProcesses hkept
    _ = host.tree := (Host.of_withoutProcesses_printing (left_mapM hlooks hfront)).1

/-! ### The two runs -/

/-- Checking a target and previewing it, each with its report. -/
theorem related_handle [Interpreter] (config : Json) (root : Path) (options : GenerateOptions)
    (dryRun : Bool) (name : String) :
    Related Host.Alike
      (fun checked previewed => previewed = checked.previewed ∧
        (checked.status = .unchanged ∨ checked.status = .drift))
      (handle config root (options.checking dryRun) name)
      (handle config root options.previewing name) := by
  refine related_bind (related_generate_verify_preview config root name options.output) ?_
  intro checked previewed hvalues
  refine related_bind (V := Eq) (related_modify ?_) fun _ _ _ => related_pure hvalues
  rintro host _ ⟨printed, rfl⟩
  exact ⟨_, rfl⟩

/-- The status of a run that checks: whether some file is out of date. -/
theorem exitStatus_checking (dryRun : Bool) {outcomes : List Outcome}
    (hstatuses : ∀ outcome ∈ outcomes, outcome.status = .unchanged ∨ outcome.status = .drift) :
    exitStatus (options.checking dryRun) outcomes
      = if ∃ outcome ∈ outcomes, outcome.status ≠ .unchanged then 1 else 0 := by
  have hdrift : ((outcomes.any fun outcome => outcome.status = .drift) = true)
      ↔ ∃ outcome ∈ outcomes, outcome.status ≠ .unchanged := by
    rw [List.any_eq_true]
    refine exists_congr fun outcome => and_congr_right fun hmem => ?_
    rcases hstatuses outcome hmem with hstatus | hstatus <;> simp [hstatus]
  rw [exitStatus]
  simp only [GenerateOptions.checking, Bool.true_and, hdrift]

/-- How a run that checks and one that previews can end, from one host. -/
inductive Compared [Interpreter] (options : GenerateOptions) (dryRun : Bool) (host : Host) :
    EStateM.Result Error Host Nat → EStateM.Result Error Host Nat → Prop
  /-- Both are refused before the first target, and nothing has happened. -/
  | unselected {error : Error} (selection : selected options host = .error error host) :
      Compared options dryRun host (.error error host) (.error error host)
  /-- Both are refused at one target, the outcomes in front of it agreeing. -/
  | refused {root : Path} {config : Json} {names done later : List String} {name : String}
      {outcomes : List Outcome} {checked previewed checkedAfter previewedAfter : Host}
      {error : Error} (selection : selected options host = .ok (root, config, names) host)
      (split : names = done ++ name :: later)
      (checkedFront : done.mapM (handle config root (options.checking dryRun)) host
        = .ok outcomes checked)
      (previewedFront : done.mapM (handle config root options.previewing) host
        = .ok (outcomes.map Outcome.previewed) previewed)
      (checkedRefusal : generate config root name options.output .verify checked
        = .error error checkedAfter)
      (previewedRefusal : generate config root name options.output .preview previewed
        = .error error previewedAfter)
      (checkedTree : checkedAfter.tree = host.tree)
      (previewedTree : previewedAfter.tree = host.tree) :
      Compared options dryRun host (.error error checkedAfter) (.error error previewedAfter)
  /-- Both return. Their outcomes agree, and they are what is reported. -/
  | returned {root : Path} {config : Json} {names : List String} {outcomes : List Outcome}
      {checkedAfter previewedAfter : Host}
      (selection : selected options host = .ok (root, config, names) host)
      (checkedRun : names.mapM (handle config root (options.checking dryRun)) host
        = .ok outcomes checkedAfter)
      (previewedRun : names.mapM (handle config root options.previewing) host
        = .ok (outcomes.map Outcome.previewed) previewedAfter)
      (statuses : ∀ outcome ∈ outcomes, outcome.status = .unchanged ∨ outcome.status = .drift)
      (checkedPrinted : checkedAfter.printed
        = host.printed ++ String.join (outcomes.map (report options)))
      (previewedPrinted : previewedAfter.printed
        = host.printed ++ String.join ((outcomes.map Outcome.previewed).map (report options)))
      (checkedTree : checkedAfter.tree = host.tree)
      (previewedTree : previewedAfter.tree = host.tree) :
      Compared options dryRun host
        (.ok (if ∃ outcome ∈ outcomes, outcome.status ≠ .unchanged then 1 else 0) checkedAfter)
        (.ok 0 previewedAfter)

/-- The two runs over the targets that were selected. -/
theorem compared_generateAll [Interpreter] {dryRun : Bool}
    (hselected : selected options host = .ok (root, config, names) host) :
    Compared options dryRun host (generateAll config root (options.checking dryRun) names host)
      (generateAll config root options.previewing names host) := by
  have hchecks : (options.checking dryRun).OnlyLooks := by
    show WriteMode.verify ≠ .apply
    decide
  have hpreviews : options.previewing.OnlyLooks := by
    show WriteMode.preview ≠ .apply
    decide
  have hmatched : ∀ items : List String, Matched Host.Alike
      (fun outcomes outcomes' => outcomes' = outcomes.map Outcome.previewed ∧
        ∀ outcome ∈ outcomes, outcome.status = .unchanged ∨ outcome.status = .drift)
      (items.mapM (handle config root (options.checking dryRun)) host)
      (items.mapM (handle config root options.previewing) host) := fun items =>
    related_mapM (related_handle config root options dryRun) host host (.refl host)
  cases hrun : names.mapM (handle config root (options.checking dryRun)) host with
  | ok outcomes checkedAfter =>
      have hboth := hmatched names
      rw [hrun] at hboth
      obtain ⟨_, previewedAfter, hpreviewed, ⟨rfl, hstatuses⟩, -⟩ := hboth.of_ok
      obtain ⟨hcheckedTree, hcheckedPrinted⟩ :=
        Host.of_withoutProcesses_printing (left_mapM hchecks hrun)
      obtain ⟨hpreviewedTree, hpreviewedPrinted⟩ :=
        Host.of_withoutProcesses_printing (left_mapM hpreviews hpreviewed)
      rw [generateAll_eq, generateAll_eq, bind_apply, bind_apply, hrun, hpreviewed]
      show Compared options dryRun host (.ok (exitStatus _ _) _) (.ok (exitStatus _ _) _)
      rw [exitStatus_checking dryRun hstatuses]
      exact .returned hselected hrun hpreviewed hstatuses hcheckedPrinted hpreviewedPrinted
        hcheckedTree hpreviewedTree
  | error error checkedAfter =>
      obtain ⟨done, name, later, outcomes, checked, hnames, hdone, hhandle⟩ := mapM_eq_error hrun
      have hfront := hmatched done
      rw [hdone] at hfront
      obtain ⟨_, previewed, hpreviewed, ⟨rfl, -⟩, halike⟩ := hfront.of_ok
      -- The hosts are alike in front of the target, so the other run is refused there, too.
      have hnext := related_handle config root options dryRun name checked previewed halike
      rw [hhandle] at hnext
      obtain ⟨previewedAfter, hrefused, -⟩ := hnext.of_error
      have hcheckedRefusal := generate_of_handle_error hhandle
      have hpreviewedRefusal := generate_of_handle_error hrefused
      have hpreviewedRun := mapM_append_of_error later hpreviewed hrefused
      rw [← hnames] at hpreviewedRun
      rw [generateAll_eq, generateAll_eq, bind_apply, bind_apply, hrun, hpreviewedRun]
      exact .refused hselected hnames hdone hpreviewed hcheckedRefusal hpreviewedRefusal
        (tree_of_refusal hchecks hdone hcheckedRefusal)
        (tree_of_refusal hpreviews hpreviewed hpreviewedRefusal)

/-- Checking and previewing never touch the files, and agree with each other. -/
theorem compared_runGenerate [Interpreter] (options : GenerateOptions) (dryRun : Bool)
    (host : Host) :
    Compared options dryRun host (runGenerate (options.checking dryRun) host)
      (runGenerate options.previewing host) := by
  have hkeeps : Keeps id (selected options) := keeps_selected options
  have hselection := hkeeps host
  rw [runGenerate_eq, runGenerate_eq, bind_apply, bind_apply, selected_checking,
    selected_previewing]
  cases hselected : selected options host with
  | error error after =>
      rw [hselected] at hselection
      obtain rfl : after = host := hselection
      exact .unselected hselected
  | ok chosen after =>
      obtain ⟨root, config, names⟩ := chosen
      rw [hselected] at hselection
      obtain rfl : after = host := hselection
      exact compared_generateAll hselected

end HeaderBind.CommandLine
