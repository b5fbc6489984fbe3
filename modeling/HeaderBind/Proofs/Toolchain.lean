import HeaderBind.Proofs.FileTree.Basic
import HeaderBind.Proofs.Host
import HeaderBind.Toolchain

/-!
# `HeaderBind.Proofs.Toolchain`: a probe leaves no traces among the files

A probe writes its program into a directory of its own. The name of the directory is not taken
(`scratchName_not_mem`), so nothing lies at its place or below it, and when the directory is removed
at the end the tree is what it was, entry by entry, whether the stages succeeded or not
(`keeps_probe`). Apart from the processes themselves a host is as it was before.

What was printed so far decides nothing: a toolchain does the same on hosts that are `Alike`
(`related_probe`). A search for a compiler looks at less than that. It comes to the same on hosts of
which only processes and printed lines differ (`Compiler.SameView`).
-/

set_option autoImplicit false

namespace HeaderBind

open Effect

/-- The host of a bench apart from its processes. -/
def Bench.still (bench : Bench) : Host :=
  bench.host.withoutProcesses

/-- The bench with other files. -/
def Bench.withTree (bench : Bench) (tree : FileTree) : Bench :=
  { bench with host := { bench.host with tree := tree } }

/-- Benches with hosts that differ at most in what was printed. -/
def Bench.Alike (bench other : Bench) : Prop :=
  ∃ printed, other = { bench with host := { bench.host with printed := printed } }

namespace Compiler

/-- What a candidate stands for depends on the environment and on the users. -/
theorem expand_of_environment {host other : Host} (h : other.environment = host.environment)
    (husers : other.users = host.users) (candidate : String) :
    expand other candidate = expand host candidate := by
  have hsetting : other.setting? = host.setting? := by
    funext name
    rw [Host.setting?, h, Host.setting?]
  simp only [expand, expandVariables, expandHome, homeOf?, hsetting, husers]

/-- Hosts on which a search for a compiler sees the same. -/
structure SameView (host other : Host) : Prop where
  tree : other.tree = host.tree
  workingDirectory : other.workingDirectory = host.workingDirectory
  environment : other.environment = host.environment
  users : other.users = host.users
  commands : other.commands = host.commands
  family : other.family = host.family

namespace SameView

variable {host other : Host}

/-- A search looks at no processes and at nothing that was printed. -/
theorem of_alike (h : host.withoutProcesses.Alike other.withoutProcesses) :
    SameView host other := by
  obtain ⟨printed, hrest⟩ := h
  have htree := congrArg Host.tree hrest
  have hdirectory := congrArg Host.workingDirectory hrest
  have henvironment := congrArg Host.environment hrest
  have husers := congrArg Host.users hrest
  have hcommands := congrArg Host.commands hrest
  have hfamily := congrArg Host.family hrest
  exact ⟨htree, hdirectory, henvironment, husers, hcommands, hfamily⟩

variable (h : SameView host other)
include h

theorem find (candidate : String) :
    Compiler.find other candidate = Compiler.find host candidate := by
  have hfound : ∀ expanded, findExpanded other expanded = findExpanded host expanded := by
    intro expanded
    simp only [findExpanded, Host.pathExists, h.tree, h.workingDirectory, h.commands]
  simp only [Compiler.find, expand_of_environment h.environment h.users, hfound]

theorem findFirst (candidates : List String) :
    Compiler.findFirst other candidates = Compiler.findFirst host candidates := by
  induction candidates with
  | nil => rfl
  | cons candidate rest ih => simp only [Compiler.findFirst, h.find, ih]

/-- The search comes to the same. -/
theorem resolve (compiler : Option String) (further : List String) :
    Compiler.resolve other compiler further = Compiler.resolve host compiler further := by
  have hsetting : other.setting? = host.setting? := by
    funext name
    rw [Host.setting?, h.environment, Host.setting?]
  have hcandidates : candidates other compiler further = candidates host compiler further := by
    simp only [candidates, defaultCandidates, hsetting, h.family]
  rw [Compiler.resolve, Compiler.resolve, hcandidates, h.findFirst]

end SameView

end Compiler

namespace Toolchain

/-! ### Scratch directories -/

theorem le_foldl_max {ns : List Nat} {n : Nat} (start : Nat) (h : n ≤ start ∨ n ∈ ns) :
    n ≤ ns.foldl max start := by
  induction ns generalizing start with
  | nil => simpa using h
  | cons first ns ih =>
      refine ih (max start first) ?_
      rcases h with hstart | hmem
      · exact .inl (by omega)
      · rcases List.mem_cons.mp hmem with rfl | hrest
        · exact .inl (by omega)
        · exact .inr hrest

/-- The name of a scratch directory is not taken: it is the usual one, or longer than any there
is. -/
theorem scratchName_not_mem (taken : List String) : scratchName taken ∉ taken := by
  rw [scratchName]
  split
  · -- The usual name is taken, so the name is longer than every one that is.
    intro hmem
    have hle := le_foldl_max 0 (.inr (List.mem_map_of_mem (f := String.length) hmem))
    simp only [← String.length_toList, String.toList_ofList, List.length_append,
      List.length_replicate] at hle
    omega
  · rename_i hfree
    simpa using hfree

/-- Nothing lies where a scratch directory is made. -/
theorem vacant_scratch (tree : FileTree) (parent : Location) :
    tree.Vacant (parent ++ [scratchName (tree.names parent)]) := by
  rintro entry hentry ⟨rest, hrest⟩
  refine scratchName_not_mem (tree.names parent) ?_
  rw [List.append_assoc, List.singleton_append] at hrest
  rw [FileTree.names, List.mem_eraseDups]
  refine List.mem_filterMap.mpr ⟨entry, hentry, ?_⟩
  rw [← hrest, if_pos (List.isPrefixOf_iff_prefix.mpr (List.prefix_append _ _))]
  simp [FileTree.names]

/-! ### What a probe leaves behind -/

/-- Refusing a command that cannot be launched changes nothing. -/
theorem keeps_demandLaunchable {τ : Type} {part : Bench → τ} (command : List String) :
    Keeps part (demandLaunchable command) := by
  rw [demandLaunchable]
  split
  · exact keeps_pure ()
  · exact keeps_throw _

theorem keeps_execute (stage : Stage) (command : List String) :
    Keeps (fun bench => (bench.still, bench.found)) (execute stage command) := by
  refine keeps_bind (keeps_modify fun _ => rfl) fun _ => ?_
  refine keeps_bind (keeps_demandLaunchable command) fun _ => ?_
  refine keeps_bind (fun _ => rfl) fun answer => ?_
  cases answer with
  | failed reason => exact keeps_throw _
  | garbled fault => exact keeps_throw _
  | finished status output diagnostics =>
      by_cases hstatus : status = 0
      · simp only [if_pos hstatus]
        exact keeps_pure output
      · simp only [if_neg hstatus]
        exact keeps_throw _

/-- The compiler of a toolchain: the one that it keeps, or else the one that its settings lead
to. -/
def compilerOf (settings : ToolchainSettings) (bench : Bench) : Except Error String :=
  match bench.found with
  | some found => .ok found
  | none => Compiler.resolve bench.host settings.compiler.nonEmptyText? settings.candidates

/-- Once there is a compiler, it is kept. Nothing else happens. -/
theorem compiler_apply (settings : ToolchainSettings) (bench : Bench) :
    compiler settings bench
      = match compilerOf settings bench with
        | .ok found => .ok found { bench with found := some found }
        | .error error => .error error bench := by
  obtain ⟨host, recorded, kept⟩ := bench
  rw [compiler, get_bind_apply]
  cases kept with
  | some found => rfl
  | none =>
      dsimp only [compilerOf]
      cases Compiler.resolve host settings.compiler.nonEmptyText? settings.candidates <;> rfl

theorem keeps_compiler (settings : ToolchainSettings) : Keeps Bench.still (compiler settings) := by
  intro bench
  rw [compiler_apply]
  cases compilerOf settings bench <;> rfl

theorem keeps_noteCompiled (source : Path) (command : List String) :
    Keeps (fun bench => (bench.still, bench.found)) (noteCompiled source command) := by
  refine keeps_modify fun bench => ?_
  cases isLaunchable command <;> cases bench.host.readBytes source <;> rfl

theorem keeps_stages (settings : ToolchainSettings) (files : ProbeFiles) :
    Keeps Bench.still (stages settings files) := by
  have hexecute : ∀ stage command, Keeps Bench.still (execute stage command) :=
    fun stage command => (keeps_execute stage command).map Prod.fst
  refine keeps_bind (keeps_compiler settings) fun found => ?_
  refine keeps_bind ((keeps_noteCompiled files.source _).map Prod.fst) fun _ => ?_
  refine keeps_bind (keeps_bind (hexecute _ _) fun _ => keeps_pure _) fun _ => ?_
  refine keeps_bind (keeps_compiler settings) fun found => ?_
  refine keeps_bind (keeps_bind (hexecute _ _) fun _ => keeps_pure _) fun _ => ?_
  exact hexecute _ _

/-- Where a probe is going to make its scratch directory. -/
def scratchDirectory (host : Host) : Location :=
  host.scratchRoot ++ [scratchName (host.tree.names host.scratchRoot)]

/-- The bench on which the stages of a probe work: its program lies in its scratch directory. -/
def prepared (source : String) (bench : Bench) : Bench :=
  let directory := scratchDirectory bench.host
  bench.withTree ((bench.host.tree.put directory .directory).put
    (probeFiles bench.host.family directory).source.parts (.file (Utf8.encode source)))

/-- The bench without a scratch directory. -/
def cleaned (directory : Location) (bench : Bench) : Bench :=
  bench.withTree (bench.host.tree.remove directory)

/-- A probe is its three stages, between making the scratch directory and removing it. -/
theorem probe_apply (settings : ToolchainSettings) (source : String) (bench : Bench) :
    probe settings source bench
      = match stages settings (probeFiles bench.host.family (scratchDirectory bench.host))
            (prepared source bench) with
        | .ok output after => .ok output (cleaned (scratchDirectory bench.host) after)
        | .error error after => .error error (cleaned (scratchDirectory bench.host) after) := by
  show tryFinally (stages settings (probeFiles bench.host.family (scratchDirectory bench.host)))
    (modify (cleaned (scratchDirectory bench.host))) (prepared source bench) = _
  rw [tryFinally_modify_apply]
  cases stages settings (probeFiles bench.host.family (scratchDirectory bench.host))
    (prepared source bench) <;> rfl

/-- Cleaning up gives back the tree from before the probe. -/
theorem remove_prepared (source : String) (bench : Bench) :
    (prepared source bench).host.tree.remove (scratchDirectory bench.host) = bench.host.tree := by
  have hsource : scratchDirectory bench.host
      <+: (probeFiles bench.host.family (scratchDirectory bench.host)).source.parts := by
    cases bench.host.family <;> exact List.prefix_append _ _
  -- What was put at the directory and below it goes with it; nothing else was there.
  show FileTree.remove (FileTree.put (FileTree.put _ _ _) _ _) _ = _
  rw [FileTree.remove_put_of_below hsource, FileTree.remove_put_of_below (List.prefix_refl _)]
  exact FileTree.remove_of_vacant (vacant_scratch bench.host.tree bench.host.scratchRoot)

/-- A probe leaves a host as it was, apart from its processes, also when a stage fails. -/
theorem keeps_probe (settings : ToolchainSettings) (source : String) :
    Keeps Bench.still (probe settings source) := by
  intro bench
  have hstages := keeps_stages settings
    (probeFiles bench.host.family (scratchDirectory bench.host)) (prepared source bench)
  -- The stages keep the tree they find, so cleaning up gives back the one before.
  have hcleaned : ∀ after : Bench, after.still = (prepared source bench).still →
      (cleaned (scratchDirectory bench.host) after).still = bench.still := by
    intro after hafter
    have htree := congrArg Host.tree hafter
    change after.host.tree = (prepared source bench).host.tree at htree
    show { after.still with tree := after.host.tree.remove (scratchDirectory bench.host) } = _
    rw [htree, remove_prepared, hafter]
    rfl
  rw [probe_apply]
  generalize stages settings _ (prepared source bench) = result at hstages ⊢
  cases result with
  | ok output after => exact hcleaned after hstages
  | error error after => exact hcleaned after hstages

/-- What the steps of a toolchain keep of a host is kept. -/
theorem keeps_onHost {α τ : Type} {part : Host → τ} {act : BenchAction α}
    (h : Keeps (fun bench => part bench.host) act) : Keeps part (onHost act) := by
  intro host
  have hkept := h (.ofHost host)
  unfold onHost
  generalize act (.ofHost host) = result at hkept ⊢
  cases result <;> exact hkept

/-- What the steps of a toolchain answer on a host. -/
theorem of_onHost {α : Type} {act : BenchAction α} {host after : Host} {value : α}
    {commands : List String} (h : onHost act host = .ok (value, commands) after) :
    ∃ bench, act (.ofHost host) = .ok value bench := by
  unfold onHost at h
  cases hrun : act (.ofHost host) with
  | ok made bench =>
      rw [hrun] at h
      cases h
      exact ⟨bench, rfl⟩
  | error error bench => rw [hrun] at h; cases h

/-! ### What was printed decides nothing -/

theorem related_execute (stage : Stage) (command : List String) :
    Related Bench.Alike Eq (execute stage command) (execute stage command) := by
  refine related_bind (V := Eq) (related_modify ?_) fun _ _ _ => ?_
  · rintro bench _ ⟨printed, rfl⟩
    exact ⟨printed, rfl⟩
  refine related_bind (V := Eq) ?_ fun _ _ _ => ?_
  · rw [demandLaunchable]
    split
    · exact related_pure rfl
    · exact related_throw _
  refine related_bind (V := Eq) ?_ ?_
  · rintro bench _ ⟨printed, rfl⟩
    exact .ok rfl ⟨printed, rfl⟩
  rintro answer _ rfl
  cases answer with
  | failed reason => exact related_throw _
  | garbled fault => exact related_throw _
  | finished status output diagnostics =>
      by_cases hstatus : status = 0
      · simp only [if_pos hstatus]
        exact related_pure rfl
      · simp only [if_neg hstatus]
        exact related_throw _

theorem related_compiler (settings : ToolchainSettings) :
    Related Bench.Alike Eq (compiler settings) (compiler settings) := by
  rintro bench _ ⟨printed, rfl⟩
  have hview : Compiler.SameView bench.host { bench.host with printed := printed } :=
    ⟨rfl, rfl, rfl, rfl, rfl, rfl⟩
  have hsame : compilerOf settings { bench with host := { bench.host with printed := printed } }
      = compilerOf settings bench := by
    simp only [compilerOf, hview.resolve]
  rw [compiler_apply, compiler_apply, hsame]
  cases compilerOf settings bench with
  | ok found => exact .ok rfl ⟨printed, rfl⟩
  | error error => exact .error ⟨printed, rfl⟩

theorem related_noteCompiled (source : Path) (command : List String) :
    Related Bench.Alike Eq (noteCompiled source command) (noteCompiled source command) := by
  refine related_modify ?_
  rintro bench _ ⟨printed, rfl⟩
  have hread : ({ bench.host with printed := printed } : Host).readBytes source
      = bench.host.readBytes source := rfl
  rw [hread]
  cases isLaunchable command <;> cases bench.host.readBytes source <;> exact ⟨printed, rfl⟩

theorem related_stages (settings : ToolchainSettings) (files : ProbeFiles) :
    Related Bench.Alike Eq (stages settings files) (stages settings files) := by
  have hexecute : ∀ stage command, Related Bench.Alike Eq (discard (execute stage command))
      (discard (execute stage command)) := fun stage command =>
    related_bind (related_execute stage command) fun _ _ _ => related_pure rfl
  refine related_bind (related_compiler settings) ?_
  rintro found _ rfl
  refine related_bind (related_noteCompiled files.source _) fun _ _ _ => ?_
  refine related_bind (hexecute _ _) fun _ _ _ => ?_
  refine related_bind (related_compiler settings) ?_
  rintro found _ rfl
  exact related_bind (hexecute _ _) fun _ _ _ => related_execute _ _

/-- A probe does the same on hosts that differ in what was printed. -/
theorem related_probe (settings : ToolchainSettings) (source : String) :
    Related Bench.Alike Eq (probe settings source) (probe settings source) := by
  refine related_get_bind ?_
  rintro bench _ ⟨printed, rfl⟩
  refine related_bind (V := Eq) (related_modify ?_) fun _ _ _ => ?_
  · rintro bench _ ⟨printed, rfl⟩
    exact ⟨printed, rfl⟩
  refine related_tryFinally_modify (related_stages settings _) ?_
  rintro bench _ ⟨printed, rfl⟩
  exact ⟨printed, rfl⟩

/-- What a toolchain does the same on such benches, it does the same on such hosts. -/
theorem related_onHost {α : Type} {act : BenchAction α} (h : Related Bench.Alike Eq act act) :
    Related Host.Alike Eq (onHost act) (onHost act) := by
  rintro host _ ⟨printed, rfl⟩
  have hmatched := h (.ofHost host) (.ofHost { host with printed := printed }) ⟨printed, rfl⟩
  unfold onHost
  generalize act (.ofHost host) = result at hmatched ⊢
  generalize act (.ofHost { host with printed := printed }) = result' at hmatched ⊢
  cases hmatched with
  | ok values states =>
      obtain ⟨printed, rfl⟩ := states
      subst values
      exact .ok rfl ⟨printed, rfl⟩
  | error states =>
      obtain ⟨printed, rfl⟩ := states
      exact .error ⟨printed, rfl⟩

end Toolchain

end HeaderBind
