import HeaderBind.Proofs.CommandLine.Generate
import HeaderBind.Proofs.Config.Reordered
import HeaderBind.Proofs.Escape.Target

/-!
# `HeaderBind.Proofs.CommandLine.KeyOrder`: a run does not depend on the order of keys

A configuration is an object of objects, and its keys come in an order: that of its targets, of the
settings of a target and of the parts of a declaration. A run over targets shares the answers of the
processes and the files among them, so the order in which targets are taken can be seen. It is the
order of their names, and nothing that is done for one target depends on the order of its keys.

`runGenerate_reordered` says both of two documents that are equal up to the order of keys. The check
accepts both or neither; and where it accepts them, generating modules is one and the same action
with either of them, so from one host on there are the same processes, the same lines, the same
files and the same ending. The proof goes through the parts of that action, each of which looks at
the document by what `HeaderBind.Proofs.Config.Reordered` says of it: the names, the output path,
the toolchain, and the draft of a target.
-/

set_option autoImplicit false

namespace HeaderBind

open Json (Reordered)
open Effect

/-! ### One target -/

namespace Generation

variable {first second : Json}

theorem outputOf_eq_of_reordered [Interpreter] (h : Reordered first second)
    (hcheck : Config.check first = .ok ()) (root : Path) (workingDirectory : Location)
    (name : String) (output : Option String) :
    outputOf first root workingDirectory name output
      = outputOf second root workingDirectory name output := by
  unfold outputOf
  rcases Target.find_reordered h (some name) with
    ⟨fault, hfind, hfind'⟩ | ⟨target, target', hfind, hfind', hrelated⟩
  · rw [hfind, hfind']
  · rw [hfind, hfind']
    exact Target.outputPath_eq_of_reordered hrelated (Target.fits_of_find hcheck hfind).1 root
      workingDirectory output

theorem toolchainOf_eq_of_reordered [Interpreter] (h : Reordered first second)
    (hcheck : Config.check first = .ok ()) (root : Path) (workingDirectory : Location)
    (name : String) :
    toolchainOf first root workingDirectory name
      = toolchainOf second root workingDirectory name := by
  unfold toolchainOf
  rcases Target.find_reordered h (some name) with
    ⟨fault, hfind, hfind'⟩ | ⟨target, target', hfind, hfind', hrelated⟩
  · rw [hfind, hfind']
  · rw [hfind, hfind']
    exact Target.toolchain_eq_of_reordered hrelated (Target.fits_of_find hcheck hfind).1 root
      workingDirectory

/-- Preparing a target comes to the same draft and the same toolchain. -/
theorem prepare_eq_of_reordered [Interpreter] (h : Reordered first second)
    (hcheck : Config.check first = .ok ()) (root : Path) (name : String) :
    prepare first root name = prepare second root name := by
  funext host
  rw [prepare_apply, prepare_apply, toolchainOf_eq_of_reordered h hcheck,
    Draft.ofTarget_eq_of_reordered h hcheck]

/-- So a target is generated alike. -/
theorem generate_eq_of_reordered [Interpreter] (h : Reordered first second)
    (hcheck : Config.check first = .ok ()) (root : Path) (name : String)
    (output : Option String) (mode : WriteMode) :
    generate first root name output mode = generate second root name output mode := by
  have hmodule : moduleOf first root name = moduleOf second root name := by
    unfold moduleOf
    rw [prepare_eq_of_reordered h hcheck]
  rw [generate_eq, generate_eq, hmodule]
  simp only [outputOf_eq_of_reordered h hcheck]

end Generation

/-! ### The command -/

namespace CommandLine

open Generation

variable {first second : Json}

/-- The command that generates modules, with its configuration at hand. -/
def generateWith [Interpreter] (config : Json) (options : GenerateOptions) : Action Nat := do
  let root ← Action.resolve options.root
  let names ← Action.ofExcept .ofTarget (Target.names config options.target)
  if (nonEmpty options.output).isSome && names.length ≠ 1 then
    throw (.configuration .severalTargets)
  generateAll config root options names

/-- A host on which a path, as it is given, leads to a file with a document. -/
def HasDocument [Interpreter] (host : Host) (path : String) (document : Json) : Prop :=
  ∃ file, host.resolve path = .ok file ∧ Json.load file host = .ok document host

theorem resolve_apply (text : String) (host : Host) :
    Action.resolve text host
      = match host.resolve text with
        | .ok path => .ok path host
        | .error fault => .error (.ofPath fault) host := by
  rw [Action.resolve, get_bind_apply]
  cases host.resolve text <;> rfl

/-- With a configuration in its file, the command has it at hand. -/
theorem runGenerate_of_hasDocument [Interpreter] {options : GenerateOptions} {host : Host}
    {config : Json} (hdocument : HasDocument host options.config config)
    (hcheck : Config.check config = .ok ()) :
    runGenerate options host = generateWith config options host := by
  obtain ⟨file, hfile, hload⟩ := hdocument
  have hloaded : Config.load file host = .ok config host := by
    rw [Config.load, bind_apply, hload]
    simp only [hcheck]
    rfl
  rw [runGenerate, generateWith, bind_apply, bind_apply, resolve_apply]
  cases host.resolve options.root with
  | error fault => rfl
  | ok root =>
      simp only
      rw [bind_apply, resolve_apply, hfile]
      simp only
      rw [bind_apply, hloaded]

/-- The run is the same action with either document, and it does not ask for the path that the
document was found at. -/
theorem generateWith_eq_of_reordered [Interpreter] (h : Reordered first second)
    (hcheck : Config.check first = .ok ()) (options : GenerateOptions) (config : String) :
    generateWith first options = generateWith second { options with config := config } := by
  have hhandle : ∀ root, handle first root options
      = handle second root { options with config := config } := by
    intro root
    funext name
    simp only [handle, generate_eq_of_reordered h hcheck]
    rfl
  unfold generateWith
  simp only [Target.names_eq_of_reordered h, generateAll_eq, hhandle]
  rfl

/-- The order of keys does not matter. Of two documents that are equal up to it, both pass the check
or none. If they pass, the command does on every host what it does with the first of them at hand,
be it the first or the second one that is in the file of the configuration; and with both of them
in files of one host, it makes no difference which file is given. -/
theorem runGenerate_reordered [Interpreter] (h : Reordered first second) :
    (Config.check first = .ok () ↔ Config.check second = .ok ()) ∧
      (Config.check first = .ok () → ∀ (options : GenerateOptions) (host : Host),
        (HasDocument host options.config first ∨ HasDocument host options.config second →
          runGenerate options host = generateWith first options host) ∧
        ∀ config : String, HasDocument host options.config first →
          HasDocument host config second →
          runGenerate options host = runGenerate { options with config := config } host) := by
  have hiff := Config.check_iff_of_reordered h
  refine ⟨hiff, fun hcheck options host => ⟨?_, fun config hfirst hsecond => ?_⟩⟩
  · rintro (hfirst | hsecond)
    · exact runGenerate_of_hasDocument hfirst hcheck
    · rw [runGenerate_of_hasDocument hsecond (hiff.mp hcheck),
        generateWith_eq_of_reordered h hcheck options options.config]
  · have hother : runGenerate { options with config := config } host
        = generateWith second { options with config := config } host :=
      runGenerate_of_hasDocument hsecond (hiff.mp hcheck)
    rw [runGenerate_of_hasDocument hfirst hcheck, hother,
      generateWith_eq_of_reordered h hcheck options config]

/-! ### Two orders -/

/-- A target with one constant, its keys the other way round. -/
def turnedTarget (name constant : String) : String :=
  s!"\"{name}\":\x7b\"declarations\":[\x7b\"constant\":\"{constant}\"\x7d]," ++
    s!"\"module\":\"{name}\"\x7d"

/-- A host with a configuration of two targets, and beside it one with the targets and their keys in
another order. -/
def twoOrders : Host :=
  let host := sampleHost (sampleConfig [sampleTarget "b" "B", sampleTarget "a" "A"])
    ["A=1\n", "B=2\n"]
  { host with
    tree := host.tree.put ["turned.json"]
      (.file (Utf8.encode (sampleConfig [turnedTarget "a" "A", turnedTarget "b" "B"]))) }

/-- The document in a file of the host. -/
def documentIn (file : String) : Json :=
  match Json.load ⟨.root, [file]⟩ twoOrders with
  | .ok document _ => document
  | .error _ _ => .null

/-- The texts of the two documents. -/
def orders : String × String :=
  (sampleConfig [sampleTarget "b" "B", sampleTarget "a" "A"],
    sampleConfig [turnedTarget "a" "A", turnedTarget "b" "B"])

/-- What can be computed of the two documents. -/
theorem orders_facts :
    (match Json.parse orders.1, Json.parse orders.2 with
      | .ok document, .ok turned =>
        decide (('\r' ∉ orders.1.toList ∧ '\r' ∉ orders.2.toList) ∧ document.Reordered turned ∧
          (Config.check document).toOption = some ())
      | _, _ => false) = true := by
  decide +kernel

theorem hasDocument_twoOrders {file text : String} {document : Json}
    (hfile : twoOrders.resolve file = .ok ⟨.root, [file]⟩)
    (hread : twoOrders.readBytes ⟨.root, [file]⟩ = .ok (Utf8.encode text))
    (htext : '\r' ∉ text.toList) (hparse : Json.parse text = .ok document) :
    documentIn file = document ∧ HasDocument twoOrders file document := by
  have hload := Json.load_of_parse hread htext hparse
  exact ⟨by rw [documentIn, hload], _, hfile, hload⟩

/-- On this host the two configurations lead to the same run. -/
theorem runGenerate_reordered_twoOrders :
    (documentIn "h2py.json").Reordered (documentIn "turned.json") ∧
      Config.check (documentIn "h2py.json") = .ok () ∧
      HasDocument twoOrders "h2py.json" (documentIn "h2py.json") ∧
      HasDocument twoOrders "turned.json" (documentIn "turned.json") ∧
      runGenerate (sampleOptions ".") twoOrders
        = generateWith (documentIn "h2py.json") (sampleOptions ".") twoOrders ∧
      runGenerate (sampleOptions ".") twoOrders
        = runGenerate { sampleOptions "." with config := "turned.json" } twoOrders := by
  have hfacts := orders_facts
  split at hfacts
  · rename_i document turned hparse hparseTurned
    obtain ⟨⟨htext, htextTurned⟩, hreordered, hpassed⟩ := of_decide_eq_true hfacts
    have hcheck := toOption_eq_some_iff.mp hpassed
    have hread : twoOrders.readBytes ⟨.root, ["h2py.json"]⟩ = .ok (Utf8.encode orders.1) := rfl
    have hreadTurned : twoOrders.readBytes ⟨.root, ["turned.json"]⟩
        = .ok (Utf8.encode orders.2) := rfl
    obtain ⟨hdocument, hfirst⟩ :=
      hasDocument_twoOrders (by decide +kernel) hread htext hparse
    obtain ⟨hturned, hsecond⟩ :=
      hasDocument_twoOrders (by decide +kernel) hreadTurned htextTurned hparseTurned
    obtain ⟨halone, htogether⟩ :=
      (runGenerate_reordered hreordered).2 hcheck (sampleOptions ".") twoOrders
    rw [hdocument, hturned]
    exact ⟨hreordered, hcheck, hfirst, hsecond, halone (.inl hfirst),
      htogether "turned.json" hfirst hsecond⟩
  · cases hfacts

end CommandLine

end HeaderBind
