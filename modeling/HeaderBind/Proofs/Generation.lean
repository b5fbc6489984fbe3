import HeaderBind.Generation
import HeaderBind.Proofs.Artifact
import HeaderBind.Proofs.Draft.Finish
import HeaderBind.Proofs.Toolchain

/-!
# `HeaderBind.Proofs.Generation`: generating one target

A target is generated in three parts: its output path is worked out, its module is made with the
toolchain (`moduleOf`), and the file is brought up to date. `generate_eq` says so, and everything
else goes by the parts. The first two leave the files as they are, so a target that is refused has
changed no file (`generated_generate`).

Checking a target and previewing it differ in one word of the report
(`related_generate_verify_preview`).
-/

set_option autoImplicit false

namespace HeaderBind.Generation

open Effect

/-- The path of the file that a target is generated to. -/
def outputOf (config : Json) (root : Path) (workingDirectory : Location) (name : String)
    (output : Option String) : Except Target.Fault Path := do
  let target ← Target.find config (some name)
  Target.outputPath target root workingDirectory output

/-- The module of a target as the toolchain at hand makes it: its name and its text. -/
def moduleOf [Interpreter] (config : Json) (root : Path) (name : String) :
    Action (String × String) := do
  let (draft, settings) ← prepare config root name
  let ((text, _), _) ← Toolchain.onHost (draft.finish (Toolchain.probe settings))
  pure (Draft.shownName draft.name, text)

/-- Generating a target in its three parts. -/
theorem generate_eq [Interpreter] (config : Json) (root : Path) (name : String)
    (output : Option String) (mode : WriteMode) :
    generate config root name output mode
      = get >>= fun host =>
          Action.ofExcept .ofTarget (outputOf config root host.workingDirectory name output)
        >>= fun path => moduleOf config root name
        >>= fun made => Artifact.write path made.2 mode
        >>= fun written => pure ⟨name, made.1, path, written.1, written.2⟩ := by
  funext host
  simp only [generate, moduleOf, outputOf, bind_assoc, get_bind_apply]
  cases hfind : Target.find config (some name) with
  | error fault => rfl
  | ok target =>
      rfl

/-! ### The files -/

/-- A resolved root makes every output path a resolved one. -/
theorem isResolved_of_outputOf {config : Json} {root path : Path} {workingDirectory : Location}
    {name : String} {output : Option String} (hroot : root.anchor = .root)
    (h : outputOf config root workingDirectory name output = .ok path) : path.IsResolved := by
  obtain ⟨target, -, hpath⟩ := bind_eq_ok_iff.mp h
  exact Path.isResolved_of_resolve (Path.isAbsolute_under hroot _) (mapError_eq_ok_iff.mp hpath)

theorem keeps_prepare [Interpreter] {τ : Type} {part : Host → τ} (config : Json) (root : Path)
    (name : String) : Keeps part (prepare config root name) := by
  refine keeps_bind (Action.keeps_ofExcept _ _) fun target => keeps_get_bind fun host => ?_
  refine keeps_bind (Action.keeps_ofExcept _ _) fun settings => ?_
  exact keeps_bind (Action.keeps_ofExcept _ _) fun draft => keeps_pure _

/-- Making a module leaves a host as it was, apart from its processes. -/
theorem keeps_moduleOf [Interpreter] (config : Json) (root : Path) (name : String) :
    Keeps Host.withoutProcesses (moduleOf config root name) := by
  refine keeps_bind (keeps_prepare config root name) fun prepared => ?_
  refine keeps_bind (Toolchain.keeps_onHost ?_) fun made => keeps_pure _
  exact Draft.keeps_finish (Toolchain.keeps_probe prepared.2) prepared.1

/-- So does probing a target. -/
theorem keeps_probe [Interpreter] (config : Json) (root : Path) (name : String) :
    Keeps Host.withoutProcesses (probe config root name) := by
  refine keeps_bind (keeps_prepare config root name) fun prepared => ?_
  refine keeps_bind (Toolchain.keeps_onHost ?_) fun made => keeps_pure _
  exact Draft.keeps_resolve (Toolchain.keeps_probe prepared.2) prepared.1

/-- A module is made where the files are, and they are as they were. -/
theorem files_of_moduleOf [Interpreter] {config : Json} {root : Path} {name : String}
    {host after : Host}
    {made : String × String} (h : moduleOf config root name host = .ok made after) :
    after.tree = host.tree ∧ after.workingDirectory = host.workingDirectory :=
  Host.files_of_withoutProcesses ((keeps_moduleOf config root name).of_ok h)

/-- A module that was made has a text. -/
theorem text_ne_empty [Interpreter] {config : Json} {root : Path} {name module text : String}
    {host after : Host} (h : moduleOf config root name host = .ok (module, text) after) :
    text ≠ "" := by
  obtain ⟨⟨draft, settings⟩, middle, -, h⟩ := of_bind_ok h
  obtain ⟨⟨⟨made, next⟩, commands⟩, last, honHost, h⟩ := of_bind_ok h
  cases h
  -- The text came out of the rendering, whatever the toolchain answered.
  obtain ⟨bench, hfinish⟩ := Toolchain.of_onHost honHost
  obtain ⟨shown, resolved, -, -, hrender, -⟩ := Draft.of_finish hfinish
  rw [Module.render] at hrender
  split at hrender
  · cases hrender
    -- Every text ends with the end of its last line.
    intro hempty
    have hlength := congrArg String.length hempty
    simp [Module.text] at hlength
  · cases hrender

/-- What generating a target leaves behind. -/
inductive Generated [Interpreter] (config : Json) (root : Path) (name : String)
    (output : Option String) (host : Host) : EStateM.Result Error Host Outcome → Prop
  /-- The file of the target holds the text of its module. -/
  | done {module text difference : String} {path : Path} {status : ArtifactStatus}
      {probed after : Host}
      (led : outputOf config root host.workingDirectory name output = .ok path)
      (made : moduleOf config root name host = .ok (module, text) probed)
      (holds : Artifact.Holds after path text status) (closed : after.tree.Closed) :
      Generated config root name output host (.ok ⟨name, module, path, status, difference⟩ after)
  /-- It was refused, and the files are as they were. -/
  | refused {error : Error} {after : Host} (files : after.tree = host.tree) :
      Generated config root name output host (.error error after)
  /-- It was refused because of a name in its output path that is too long. Directories that were
  missing on the way to the file have been added, and nothing else. -/
  | refusedLong {error : Error} {path : Path} {places : List Location} {after : Host}
      (led : outputOf config root host.workingDirectory name output = .ok path)
      (long : ∃ part ∈ path.parts, FileTree.nameLimit < part.utf8ByteSize)
      (added : after.tree = host.tree.withDirectories places)
      (onTheWay : ∀ place ∈ places,
        place <+: path.parent.parts ∧ host.tree.node? place = none) :
      Generated config root name output host (.error error after)

/-- A target is generated to its file, or refused with every file as it was. -/
theorem generated_generate [Interpreter] (config : Json) {root : Path} (name : String)
    (output : Option String) {host : Host} (hroot : root.anchor = .root)
    (hclosed : host.tree.Closed) :
    Generated config root name output host (generate config root name output .apply host) := by
  rw [generate_eq, get_bind_apply, bind_apply]
  cases houtput : outputOf config root host.workingDirectory name output with
  | error fault => exact .refused rfl
  | ok path =>
      show Generated config root name output host
        ((moduleOf config root name >>= fun made => Artifact.write path made.2 .apply
          >>= fun written => pure ⟨name, made.1, path, written.1, written.2⟩) host)
      have hkept := keeps_moduleOf config root name host
      rw [bind_apply]
      cases hmade : moduleOf config root name host with
      | error error after =>
          rw [hmade] at hkept
          exact .refused (Host.tree_of_withoutProcesses hkept)
      | ok made probed =>
          obtain ⟨module, text⟩ := made
          rw [hmade] at hkept
          -- The file is brought up to date in the tree that was there before the module was made.
          have htree := Host.tree_of_withoutProcesses hkept
          have hprobed : probed.tree.Closed := htree ▸ hclosed
          have hbrought := Artifact.broughtUp_write hprobed (isResolved_of_outputOf hroot houtput)
            (text_ne_empty hmade)
          simp only [bind_apply]
          generalize Artifact.write path text .apply probed = result at hbrought ⊢
          cases hbrought with
          | done holds closed => exact .done houtput hmade holds closed
          | @refused error places after paved reason =>
              have hadded : after.tree = host.tree.withDirectories places := htree ▸ paved.added
              by_cases hplaces : places = []
              · rw [hplaces, FileTree.withDirectories_nil] at hadded
                exact .refused hadded
              · exact .refusedLong houtput (reason hplaces) hadded fun place hplace =>
                  ⟨paved.onTheWay place hplace, htree ▸ paved.missing place hplace⟩

/-! ### Checking and previewing -/

/-- A target that is not to be written leaves a host as it was, apart from its processes. -/
theorem keeps_generate [Interpreter] {mode : WriteMode} (hmode : mode ≠ .apply) (config : Json)
    (root : Path) (name : String) (output : Option String) :
    Keeps Host.withoutProcesses (generate config root name output mode) := by
  rw [generate_eq]
  refine keeps_get_bind fun host => keeps_bind (Action.keeps_ofExcept _ _) fun path => ?_
  refine keeps_bind (keeps_moduleOf config root name) fun made => ?_
  refine keeps_bind (fun host => ?_) fun written => keeps_pure _
  rw [Artifact.host_left_write hmode]

theorem related_prepare [Interpreter] (config : Json) (root : Path) (name : String) :
    Related Host.Alike Eq (prepare config root name) (prepare config root name) := by
  refine related_bind (Action.related_ofExcept _ _) ?_
  rintro target _ rfl
  refine related_get_bind ?_
  rintro host _ ⟨printed, rfl⟩
  refine related_bind (Action.related_ofExcept _ _) ?_
  rintro settings _ rfl
  refine related_bind (Action.related_ofExcept _ _) ?_
  rintro draft _ rfl
  exact related_pure rfl

/-- The module of a target does not depend on what was printed. -/
theorem related_moduleOf [Interpreter] (config : Json) (root : Path) (name : String) :
    Related Host.Alike Eq (moduleOf config root name) (moduleOf config root name) := by
  refine related_bind (related_prepare config root name) ?_
  rintro ⟨draft, settings⟩ _ rfl
  refine related_bind (Toolchain.related_onHost
    (Draft.related_finish (Toolchain.related_probe settings) draft)) ?_
  rintro made _ rfl
  exact related_pure rfl

/-- The outcome of previewing a target, by that of checking it. -/
def Outcome.previewed (outcome : Outcome) : Outcome :=
  { outcome with status := Artifact.previewed outcome.status }

/-- Checking a target and previewing it come to the same, but for the name of what is out of
date. -/
theorem related_generate_verify_preview [Interpreter] (config : Json) (root : Path) (name : String)
    (output : Option String) :
    Related Host.Alike
      (fun checked previewed => previewed = checked.previewed ∧
        (checked.status = .unchanged ∨ checked.status = .drift))
      (generate config root name output .verify) (generate config root name output .preview) := by
  rw [generate_eq, generate_eq]
  refine related_get_bind ?_
  rintro host _ ⟨printed, rfl⟩
  refine related_bind (Action.related_ofExcept _ _) ?_
  rintro path _ rfl
  refine related_bind (related_moduleOf config root name) ?_
  rintro made _ rfl
  refine related_bind (Artifact.related_verify_preview path made.2) ?_
  rintro written _ ⟨hstatus, rfl⟩
  exact related_pure ⟨rfl, hstatus⟩

end HeaderBind.Generation
