import HeaderBind.Compiler
import HeaderBind.Proofs.Result
import HeaderBind.Proofs.Text.Trim

/-!
# `HeaderBind.Proofs.Compiler`: the first candidate that can be found

The names of a compiler are trimmed and made distinct twice before the search, those that no
configuration gives on their own and then all of them together, and each is trimmed once more when
it is looked for. None of this changes which one is found. `candidates_eq` says that the list that
is searched has every name of `named` once, `findFirst_distinct` that leaving out blank names and
repetitions keeps the answer, and `resolve_first_match` that the answer is the one of the first name
in `named` that can be found, with blanks and repetitions kept.

One kind of name stops the search instead of being passed over: a path that is too long to be looked
for, or a home directory of a user whose name no one can have (`Unsearchable`). Such a name is no
compiler, yet nothing behind it is found: `not_firstMatch_longPath`.
-/

set_option autoImplicit false

namespace HeaderBind.Compiler

open HeaderBind.Text

variable {host : Host}

/-! ### Candidates -/

/-- The texts without the blanks around them, blank ones left out. -/
def stripped (raws : List String) : List String :=
  (raws.map trim).filter fun name => !name.isEmpty

/-- Everything that may name the compiler, as it is given: the configured one, the configured
candidates, the values of the environment and the usual names. -/
def named (host : Host) (compiler : Option String) (further : List String) : List String :=
  (compiler.filter fun name => !name.isEmpty).toList ++ further ++
    compilerVariables.filterMap host.setting? ++ usual host.family

theorem stripped_cons_of_blank {raw : String} (rest : List String)
    (h : (trim raw).isEmpty = true) : stripped (raw :: rest) = stripped rest := by
  simp [stripped, h]

theorem stripped_cons_of_not_blank {raw : String} (rest : List String)
    (h : ¬ (trim raw).isEmpty = true) : stripped (raw :: rest) = trim raw :: stripped rest := by
  simp [stripped, h]

/-- A text is left out where it is blank or has occurred. -/
theorem distinct_cons_of_skip {seen : List String} {raw : String} (rest : List String)
    (h : (trim raw).isEmpty = true ∨ trim raw ∈ seen) :
    distinct seen (raw :: rest) = distinct seen rest := by
  simp only [distinct, Bool.or_eq_true, List.contains_iff_mem, h, if_true]

theorem distinct_cons_of_new {seen : List String} {raw : String} (rest : List String)
    (h : ¬ ((trim raw).isEmpty = true ∨ trim raw ∈ seen)) :
    distinct seen (raw :: rest) = trim raw :: distinct (seen ++ [trim raw]) rest := by
  simp only [distinct, Bool.or_eq_true, List.contains_iff_mem, h, if_false]

/-- The distinct texts stand in the order of their first occurrences. -/
theorem distinct_eq (seen raws : List String) :
    distinct seen raws
      = ((stripped raws).filter fun name => !seen.contains name).eraseDups := by
  induction raws generalizing seen with
  | nil => rfl
  | cons raw rest ih =>
      by_cases hblank : (trim raw).isEmpty = true
      · rw [distinct_cons_of_skip rest (.inl hblank), stripped_cons_of_blank rest hblank, ih]
      · rw [stripped_cons_of_not_blank rest hblank]
        by_cases hseen : trim raw ∈ seen
        · rw [distinct_cons_of_skip rest (.inr hseen), ih,
            List.filter_cons_of_neg (by simp [hseen])]
        · -- What comes behind is looked for among more texts, and `eraseDups` drops just these.
          have hnew : ¬ ((trim raw).isEmpty = true ∨ trim raw ∈ seen) := by simp [hblank, hseen]
          rw [distinct_cons_of_new rest hnew, ih, List.filter_cons_of_pos (by simp [hseen]),
            List.eraseDups_cons, List.filter_filter]
          simp only [List.contains_append, List.contains_cons, List.contains_nil, Bool.or_false,
            Bool.not_or, Bool.and_comm]

/-- Making texts distinct that will be made distinct anyway changes nothing. -/
theorem distinct_distinct {seen earlier : List String} (h : ∀ name ∈ earlier, name ∈ seen)
    (raws : List String) : distinct seen (distinct earlier raws) = distinct seen raws := by
  induction raws generalizing seen earlier with
  | nil => rfl
  | cons raw rest ih =>
      by_cases hearlier : (trim raw).isEmpty = true ∨ trim raw ∈ earlier
      · rw [distinct_cons_of_skip rest hearlier,
          distinct_cons_of_skip rest (hearlier.imp_right (h _)), ih h]
      · rw [distinct_cons_of_new rest hearlier]
        by_cases hseen : (trim raw).isEmpty = true ∨ trim raw ∈ seen
        · -- Only the inner pass keeps the text, and the outer one drops it again.
          have hmore : ∀ name ∈ earlier ++ [trim raw], name ∈ seen := by
            intro name hname
            rcases List.mem_append.mp hname with hname | hname
            · exact h name hname
            · rw [List.mem_singleton.mp hname]
              exact hseen.resolve_left fun hblank => hearlier (.inl hblank)
          rw [distinct_cons_of_skip _ (by rw [trim_trim]; exact hseen),
            distinct_cons_of_skip rest hseen, ih hmore]
        · have hmore : ∀ name ∈ earlier ++ [trim raw], name ∈ seen ++ [trim raw] := by
            intro name hname
            rcases List.mem_append.mp hname with hname | hname
            · exact List.mem_append_left _ (h name hname)
            · exact List.mem_append_right _ hname
          rw [distinct_cons_of_new _ (by rw [trim_trim]; exact hseen), trim_trim,
            distinct_cons_of_new rest hseen, ih hmore]

theorem distinct_append_distinct (seen front raws : List String) :
    distinct seen (front ++ distinct [] raws) = distinct seen (front ++ raws) := by
  induction front generalizing seen with
  | nil => exact distinct_distinct (by simp) raws
  | cons raw front ih =>
      simp only [List.cons_append, distinct, ih]

/-- The candidates are everything that may name the compiler, each once. -/
theorem candidates_eq (host : Host) (compiler : Option String) (further : List String) :
    candidates host compiler further = distinct [] (named host compiler further) := by
  rw [candidates, defaultCandidates, distinct_append_distinct, named]
  simp only [List.append_assoc]

/-! ### The search -/

/-- Blanks around a candidate make no difference. -/
theorem find_trim (host : Host) (candidate : String) :
    find host (trim candidate) = find host candidate := by
  rw [find, find, expand, expand, trim_trim]

theorem find_of_blank {candidate : String} (h : (trim candidate).isEmpty = true) :
    find host candidate = .ok none := by
  rw [find, expand, String.isEmpty_iff.mp h]
  rfl

/-- Candidates that have been looked at in vain are not missed when they come again. -/
theorem findFirst_distinct {seen : List String} (hseen : ∀ name ∈ seen, find host name = .ok none)
    (raws : List String) : findFirst host (distinct seen raws) = findFirst host raws := by
  induction raws generalizing seen with
  | nil => rfl
  | cons raw rest ih =>
      by_cases hskip : (trim raw).isEmpty = true ∨ trim raw ∈ seen
      · have hnone : find host raw = .ok none := by
          rcases hskip with hblank | hmem
          · exact find_of_blank hblank
          · -- It has been looked for before, without the blanks around it.
            rw [← find_trim]
            exact hseen _ hmem
        rw [distinct_cons_of_skip rest hskip, ih hseen, findFirst, hnone]
        rfl
      · rw [distinct_cons_of_new rest hskip, findFirst, findFirst, find_trim]
        cases hfind : find host raw with
        | error fault => rfl
        | ok answer =>
            cases answer with
            | some found => rfl
            | none =>
                refine ih fun name hname => ?_
                rcases List.mem_append.mp hname with hname | hname
                · exact hseen name hname
                · rw [List.mem_singleton.mp hname, find_trim, hfind]

/-- An answer is that of a candidate, those in front of it having been looked for in vain. -/
def DecidedBy (host : Host) (raws : List String)
    (answer : Except FileTree.Fault (Option String)) : Prop :=
  ∃ front candidate later, raws = front ++ candidate :: later ∧
    (∀ other ∈ front, find host other = .ok none) ∧ find host candidate = answer

theorem findFirst_eq_none_iff {raws : List String} :
    findFirst host raws = .ok none ↔ ∀ candidate ∈ raws, find host candidate = .ok none := by
  induction raws with
  | nil => simp [findFirst]
  | cons raw rest ih =>
      rw [findFirst, List.forall_mem_cons, ← ih]
      cases find host raw with
      | error fault => exact iff_of_false nofun nofun
      | ok answer =>
          cases answer with
          | some found => exact iff_of_false nofun nofun
          | none => simp [bind, Except.bind]

/-- Any other answer is that of one candidate. -/
theorem findFirst_eq_iff {raws : List String} {answer : Except FileTree.Fault (Option String)}
    (hanswer : answer ≠ .ok none) : findFirst host raws = answer ↔ DecidedBy host raws answer := by
  induction raws with
  | nil =>
      refine iff_of_false (fun h => hanswer h.symm) ?_
      rintro ⟨front, candidate, later, hsplit, -⟩
      simp at hsplit
  | cons raw rest ih =>
      by_cases hnone : find host raw = .ok none
      · -- Looked for in vain: the answer comes from the rest.
        have hrest : findFirst host (raw :: rest) = findFirst host rest := by
          rw [findFirst, hnone]
          rfl
        rw [hrest, ih]
        constructor
        · rintro ⟨front, candidate, later, rfl, hfront, hfind⟩
          exact ⟨raw :: front, candidate, later, rfl,
            List.forall_mem_cons.mpr ⟨hnone, hfront⟩, hfind⟩
        · rintro ⟨front, candidate, later, hsplit, hfront, hfind⟩
          cases front with
          | nil =>
              cases hsplit
              exact absurd (hfind.symm.trans hnone) hanswer
          | cons first front =>
              cases hsplit
              exact ⟨front, candidate, later, rfl, (List.forall_mem_cons.mp hfront).2, hfind⟩
      · have hfirst : findFirst host (raw :: rest) = find host raw := by
          rw [findFirst]
          cases hfind : find host raw with
          | error fault => rfl
          | ok found =>
              cases found with
              | some found => rfl
              | none => exact absurd hfind hnone
        rw [hfirst]
        constructor
        · intro hfind
          exact ⟨[], raw, rest, rfl, by simp, hfind⟩
        · rintro ⟨front, candidate, later, hsplit, hfront, hfind⟩
          cases front with
          | nil =>
              cases hsplit
              exact hfind
          | cons first front =>
              cases hsplit
              exact absurd (hfront raw List.mem_cons_self) hnone

/-- A candidate that cannot even be looked for. -/
inductive Unsearchable (host : Host) (candidate : String) : FileTree.Fault → Prop
  /-- It is in the home of a user whose name has a zero character in it. -/
  | user {rest : List Char}
      (tilde : (expandVariables host (trim candidate)).toList = '~' :: rest)
      (zero : '\x00' ∈ rest.takeWhile (· ≠ '/')) :
      Unsearchable host candidate (.unusable .zeroCharacter)
  /-- It is a path that is too long, or that leads to a name that is. -/
  | path {expanded : String} (expands : expand host candidate = .ok expanded)
      (isPath : isPath expanded = true)
      (long : host.tree.locate host.workingDirectory (.ofString expanded) = .error .tooLong) :
      Unsearchable host candidate (.tooLong (Path.ofString expanded).text)

/-- Whether something lies at a path is refused for its length only. -/
theorem pathExists_eq_error_iff {path : Path} {fault : FileTree.Fault} :
    host.pathExists path = .error fault ↔
      host.tree.locate host.workingDirectory path = .error .tooLong ∧
        fault = .tooLong path.text := by
  rw [Host.pathExists, FileTree.pathExists]
  cases host.tree.locate host.workingDirectory path with
  | ok found => simp
  | error obstacle => cases obstacle <;> simp [FileTree.Obstacle.fault, eq_comm]

/-- The name of a user is refused for a zero character only, known or not. -/
theorem expandHome_eq_error_iff {s : String} {fault : Path.Fault} :
    expandHome host s = .error fault ↔
      fault = .zeroCharacter ∧
        ∃ rest, s.toList = '~' :: rest ∧ '\x00' ∈ rest.takeWhile (· ≠ '/') := by
  unfold expandHome
  split
  · rename_i rest htilde
    simp only [htilde, List.cons.injEq, true_and, exists_eq_left']
    split
    · rename_i hzero
      rw [Except.error.injEq, eq_comm]
      exact (and_iff_left (List.contains_iff_mem.mp hzero)).symm
    · rename_i hzero
      refine iff_of_false ?_ fun hmem => hzero (List.contains_iff_mem.mpr hmem.2)
      cases homeOf? host (rest.takeWhile (· ≠ '/')) <;> exact nofun
  · rename_i hother
    refine iff_of_false nofun ?_
    rintro ⟨-, rest, htilde, -⟩
    exact hother rest htilde

theorem findExpanded_eq_error_iff {expanded : String} {fault : FileTree.Fault} :
    findExpanded host expanded = .error fault ↔
      isPath expanded = true ∧ host.pathExists (.ofString expanded) = .error fault := by
  rw [findExpanded]
  split
  · rename_i hempty
    rw [String.isEmpty_iff.mp hempty]
    exact iff_of_false nofun (by simp [isPath])
  · split
    · rename_i hpath
      simp [map_eq_error_iff, hpath]
    · rename_i hcommand
      exact iff_of_false nofun (by simp [hcommand])

/-- There is no other way for a candidate to stop the search. -/
theorem find_eq_error_iff {candidate : String} {fault : FileTree.Fault} :
    find host candidate = .error fault ↔ Unsearchable host candidate fault := by
  rw [find, bind_eq_error_iff, mapError_eq_error_iff]
  constructor
  · rintro (⟨cause, hexpand, rfl⟩ | ⟨expanded, hexpand, hfind⟩)
    · obtain ⟨rfl, rest, htilde, hzero⟩ := expandHome_eq_error_iff.mp hexpand
      exact .user htilde hzero
    · obtain ⟨hpath, hexists⟩ := findExpanded_eq_error_iff.mp hfind
      obtain ⟨hlong, rfl⟩ := pathExists_eq_error_iff.mp hexists
      exact .path (mapError_eq_ok_iff.mp hexpand) hpath hlong
  · intro h
    cases h with
    | user tilde zero =>
        exact .inl ⟨.zeroCharacter, expandHome_eq_error_iff.mpr ⟨rfl, _, tilde, zero⟩, rfl⟩
    | path expands isPath long =>
        exact .inr ⟨_, mapError_eq_ok_iff.mpr expands,
          findExpanded_eq_error_iff.mpr ⟨isPath, pathExists_eq_error_iff.mpr ⟨long, rfl⟩⟩⟩

/-! ### The outcome -/

/-- There is always something to try: the usual names, if nothing else. -/
theorem exists_tried (host : Host) (compiler : Option String) (further : List String) :
    ∃ name rest, (stripped (named host compiler further)).eraseDups = name :: rest ∧
      name ≠ "" := by
  have husual : ∃ name ∈ usual host.family, trim name ≠ "" := by
    cases host.family <;> exact ⟨_, List.mem_cons_self, by decide⟩
  obtain ⟨other, hother, hne⟩ := husual
  have hmem : trim other ∈ (stripped (named host compiler further)).eraseDups := by
    rw [List.mem_eraseDups, stripped, List.mem_filter]
    exact ⟨List.mem_map.mpr ⟨other, List.mem_append_right _ hother, rfl⟩, by simpa using hne⟩
  obtain ⟨name, rest, htried⟩ := List.exists_cons_of_ne_nil (List.ne_nil_of_mem hmem)
  have hname : name ∈ stripped (named host compiler further) := by
    rw [← List.mem_eraseDups, htried]
    exact List.mem_cons_self
  rw [stripped, List.mem_filter] at hname
  exact ⟨name, rest, htried, by simpa using hname.2⟩

/-- The message about a vain search lists the names that were tried. -/
theorem message_noCompiler {name : String} (rest : List String) (h : name ≠ "") :
    (Error.toolchain .compile (.noCompiler (name :: rest))).message
      = "compile failed: C compiler not found; tried: " ++ ", ".intercalate (name :: rest) ++
          ". Configure toolchain.compiler/toolchain.compiler_candidates or set ABI_H2PY_CC." := by
  have hchars : (", ".intercalate (name :: rest)).toList ≠ [] := by
    have hname : name.toList ≠ [] := by simpa [String.toList_eq_nil_iff] using h
    rw [String.toList_intercalate]
    cases rest with
    | nil => simpa using hname
    | cons other rest => simp [List.intercalate_cons_cons, hname]
  have hlisted : ¬ (", ".intercalate (name :: rest)).isEmpty = true := by
    intro hempty
    exact hchars (String.toList_eq_nil_iff.mpr (String.isEmpty_iff.mp hempty))
  -- The parts of the wording that stand next to each other.
  have hfront : "compile" ++ " failed: " ++ "C compiler not found; tried: "
      = "compile failed: C compiler not found; tried: " := by decide
  have hback : ". " ++ "Configure toolchain.compiler/toolchain.compiler_candidates or set " ++
      "ABI_H2PY_CC." =
      ". Configure toolchain.compiler/toolchain.compiler_candidates or set ABI_H2PY_CC." := by
    decide
  rw [← hfront, ← hback]
  unfold Error.message StageFault.message
  dsimp only
  rw [if_neg hlisted]
  simp only [String.append_assoc]
  rfl

/-- The search is one for the first of all names, blanks and repetitions among them. -/
theorem resolve_eq (host : Host) (compiler : Option String) (further : List String) :
    resolve host compiler further
      = match findFirst host (named host compiler further) with
        | .ok (some found) => .ok found
        | .ok none =>
          .error (.toolchain .compile
            (.noCompiler (stripped (named host compiler further)).eraseDups))
        | .error fault => .error (.file fault) := by
  have hsearch : findFirst host (candidates host compiler further)
      = findFirst host (named host compiler further) := by
    rw [candidates_eq]
    exact findFirst_distinct (by simp) _
  have htried : candidates host compiler further
      = (stripped (named host compiler further)).eraseDups := by
    rw [candidates_eq, distinct_eq, List.filter_eq_self.mpr (by simp)]
  rw [← htried, ← hsearch]
  rfl

/-- The first match. A compiler is found when some name stands for one, all names in front of it
standing for nothing. A search ends without one when no name stands for one, and is then refused
with the distinct names in the order of their first occurrences, or when it comes to a name that
cannot be looked for. -/
theorem resolve_first_match (host : Host) (compiler : Option String) (further : List String) :
    (∀ found, resolve host compiler further = .ok found ↔
      DecidedBy host (named host compiler further) (.ok (some found))) ∧
    (∀ error, resolve host compiler further = .error error ↔
      ((∀ name ∈ named host compiler further, find host name = .ok none) ∧
        error = .toolchain .compile
          (.noCompiler (stripped (named host compiler further)).eraseDups)) ∨
      ∃ fault, DecidedBy host (named host compiler further) (.error fault) ∧
        error = .file fault) ∧
    (Error.toolchain .compile
        (.noCompiler (stripped (named host compiler further)).eraseDups)).message
      = "compile failed: C compiler not found; tried: " ++
          ", ".intercalate (stripped (named host compiler further)).eraseDups ++
          ". Configure toolchain.compiler/toolchain.compiler_candidates or set ABI_H2PY_CC." ∧
    ∀ name fault, find host name = .error fault ↔ Unsearchable host name fault := by
  have hfound : ∀ found, findFirst host (named host compiler further) = .ok (some found) ↔
      DecidedBy host (named host compiler further) (.ok (some found)) :=
    fun found => findFirst_eq_iff (by simp)
  have hfault : ∀ fault, findFirst host (named host compiler further) = .error fault ↔
      DecidedBy host (named host compiler further) (.error fault) :=
    fun fault => findFirst_eq_iff (by simp)
  refine ⟨fun found => ?_, fun error => ?_, ?_, fun name fault => find_eq_error_iff⟩
  · rw [← hfound, resolve_eq]
    cases findFirst host (named host compiler further) with
    | error fault => simp
    | ok answer => cases answer <;> simp
  · simp only [← hfault, ← findFirst_eq_none_iff, resolve_eq]
    cases findFirst host (named host compiler further) with
    | error fault => simp [eq_comm]
    | ok answer => cases answer <;> simp [eq_comm]
  · obtain ⟨name, rest, htried, hname⟩ := exists_tried host compiler further
    rw [htried]
    exact message_noCompiler rest hname

/-- A host without files on which a command `cc` is found. -/
def bareHost : Host where
  tree := ⟨[]⟩
  workingDirectory := []
  scratchRoot := ["tmp"]
  environment := []
  commands := [("cc", "/usr/bin/cc")]
  family := .posix
  answers := []
  launched := []
  compiled := []
  printed := ""
  complaints := ""

/-- A name of 256 bytes. -/
def longLetters : String :=
  String.ofList (List.replicate 256 'a')

/-- A path to a name that is too long. -/
def longPath : String :=
  "/" ++ longLetters

theorem toList_longLetters : longLetters.toList = List.replicate 256 'a' :=
  String.toList_ofList

theorem toList_longPath : longPath.toList = '/' :: List.replicate 256 'a' := by
  have hslash : "/".toList = ['/'] := rfl
  rw [longPath, String.toList_append, toList_longLetters, hslash, List.singleton_append]

/-- Without a dollar sign there is nothing to expand. -/
theorem expandChars_eq_self (lookup : String → Option String) (fuel : Nat) {cs : List Char}
    (h : '$' ∉ cs) : expandChars lookup fuel cs = cs := by
  induction fuel generalizing cs with
  | zero => rfl
  | succ fuel ih =>
      cases cs with
      | nil => rfl
      | cons c rest =>
          have hc : c ≠ '$' := by
            intro hdollar
            exact h (by simp [hdollar])
          rw [expandChars, if_neg hc, ih fun hmem => h (List.mem_cons_of_mem c hmem)]

/-- Nothing in the path is to be trimmed or expanded. -/
theorem expand_longPath (host : Host) : expand host longPath = .ok longPath := by
  have htrim : trimChars ('/' :: List.replicate 256 'a') = '/' :: List.replicate 256 'a' := by
    decide +kernel
  have hdollar : '$' ∉ '/' :: List.replicate 256 'a' := by
    decide +kernel
  have hpath : String.ofList ('/' :: List.replicate 256 'a') = longPath := by
    rw [← toList_longPath, String.ofList_toList]
  rw [expand, trim, toList_longPath, htrim, expandVariables, String.toList_ofList,
    expandChars_eq_self _ _ hdollar, hpath, expandHome, toList_longPath]
  rfl

theorem ofString_longPath : Path.ofString longPath = ⟨.root, [longLetters]⟩ := by
  have hanchor : Path.anchorOfSlashes
      (('/' :: List.replicate 256 'a').takeWhile (· == '/')).length = .root := by
    decide +kernel
  have hparts : (('/' :: List.replicate 256 'a').splitOn '/').filter Path.isStep
      = [List.replicate 256 'a'] := by
    decide +kernel
  have hletters : String.ofList (List.replicate 256 'a') = longLetters := by
    rw [← toList_longLetters, String.ofList_toList]
  simp only [Path.ofString, toList_longPath, hanchor, hparts, List.map_cons, List.map_nil,
    hletters]

/-- Behind the root, too long a name is not looked up. -/
theorem locate_of_long {tree : FileTree} {workingDirectory : Location} {name : String}
    (husable : '\x00' ∉ name.toList) (hlong : FileTree.nameLimit < name.utf8ByteSize) :
    tree.locate workingDirectory ⟨.root, [name]⟩ = .error .tooLong := by
  have hparts : (⟨.root, [name]⟩ : Path).isUsable = true := by
    simpa [Path.isUsable] using husable
  have hwalk : tree.walk [] [name] = .error .tooLong := by
    simp [FileTree.walk, FileTree.node?, hlong]
  rw [FileTree.locate, hparts]
  -- Whether the path as a whole is too long makes no difference.
  exact ite_eq_left_iff.mpr fun _ => hwalk

/-- On no host can the path be looked for. -/
theorem find_longPath (host : Host) : find host longPath = .error (.tooLong longPath) := by
  have hpath : isPath longPath = true := by
    rw [isPath, toList_longPath]
    rfl
  have hlong : host.tree.locate host.workingDirectory (.ofString longPath) = .error .tooLong := by
    have husable : '\x00' ∉ longLetters.toList := by
      rw [toList_longLetters]
      decide +kernel
    rw [ofString_longPath]
    exact locate_of_long husable (by decide +kernel)
  have htext : (Path.ofString longPath).text = longPath := by
    rw [ofString_longPath]
    simp [Path.text, Anchor.text, longPath]
  have hstop := find_eq_error_iff.mpr (.path (expand_longPath host) hpath hlong)
  rwa [htext] at hstop

/-- A configured compiler with such a path ends every search. -/
theorem resolve_longPath (host : Host) (further : List String) :
    resolve host (some longPath) further = .error (.file (.tooLong longPath)) := by
  have hnamed : named host (some longPath) further
      = longPath ::
        (further ++ compilerVariables.filterMap host.setting? ++ usual host.family) := by
    have hfilled : (some longPath).filter (fun name => !name.isEmpty) = some longPath := by
      decide +kernel
    rw [named, hfilled]
    rfl
  rw [resolve_eq, hnamed, findFirst, find_longPath]
  rfl

/-- A path with a name that is too long leads to nothing, and a usual name is found behind it. Yet
the search ends at the path, with an error that is none of the toolchain. -/
theorem not_firstMatch_longPath :
    named bareHost (some longPath) [] = longPath :: ["cc", "gcc", "clang"] ∧
      find bareHost "cc" = .ok (some "/usr/bin/cc") ∧
      resolve bareHost (some longPath) [] = .error (.file (.tooLong longPath)) :=
  ⟨by decide +kernel, by decide +kernel, resolve_longPath bareHost []⟩

end HeaderBind.Compiler
