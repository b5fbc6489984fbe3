import HeaderBind.Toolchain
import HeaderBind.Proofs.Compiler
import HeaderBind.Proofs.Path.Spelling

/-!
# `HeaderBind.Proofs.Compiler.Launch`: what a compiler given by its path is launched as

A candidate with a separator in it is a path, and the search for a compiler asks whether something
lies there. What comes of the search is a word, the first one of the commands that compile and link,
and the system makes up its mind about that word anew: with a slash in it, it is a path; without
one, it is searched for among the commands (`Program.ofWord`).

Between the two stands the spelling of the path, which is not the text that was given.
`program_of_foundAt` says what becomes of the path on its way. The program that is launched is the
one that was looked at when the path starts at the root or has a second component. A path with one
component, or none, has lost the separator that made it a path, and is launched as a command of that
name: `command_localCompiler` is a compiler in the working directory that another one stands in for.
-/

set_option autoImplicit false

namespace HeaderBind.Compiler

variable {host : Host}

/-- What the system launches for the first word of a command. -/
inductive Program where
  /-- The file at a path, seen from the working directory. -/
  | file (path : Path)
  /-- Whatever a search among the commands finds. -/
  | command (name : String)
  deriving DecidableEq, Repr

/-- A word with a slash in it is a path, and any other word is searched for. -/
def Program.ofWord (word : String) : Program :=
  if '/' ∈ word.toList then .file (.ofString word) else .command word

/-- A candidate is a path, everything in it expanded, and something lies there. -/
structure FoundAt (host : Host) (candidate : String) (path : Path) : Prop where
  spelled : ∃ expanded, expand host candidate = .ok expanded ∧ isPath expanded = true ∧
    Path.ofString expanded = path
  there : host.pathExists path = .ok true

theorem FoundAt.isNormal {candidate : String} {path : Path} (h : FoundAt host candidate path) :
    path.IsNormal := by
  obtain ⟨expanded, -, -, rfl⟩ := h.spelled
  exact Path.isNormal_ofString expanded

/-- Such a candidate stands for the spelling of the path. -/
theorem FoundAt.find_eq {candidate : String} {path : Path} (h : FoundAt host candidate path) :
    find host candidate = .ok (some path.text) := by
  obtain ⟨expanded, hexpand, hpath, rfl⟩ := h.spelled
  have hnonempty : ¬ expanded.isEmpty = true := by
    intro hempty
    rw [String.isEmpty_iff.mp hempty] at hpath
    cases hpath
  rw [find, hexpand]
  show findExpanded host expanded = _
  rw [findExpanded, if_neg hnonempty, if_pos hpath]
  show (host.pathExists (Path.ofString expanded)).map _ = _
  rw [h.there]
  rfl

/-- A path that is spelled as the first word of a command is launched as what it is when there is a
slash in its spelling. -/
theorem Program.ofWord_text {path : Path} (h : path.IsNormal) :
    Program.ofWord path.text
      = if path.isAbsolute = true ∨ 2 ≤ path.parts.length then .file path
        else .command path.text := by
  rw [Program.ofWord, Path.ofString_text h]
  exact if_congr (Path.slash_mem_text_iff h) rfl rfl

/-- The search ends at the first candidate at which something lies, with the spelling of its path.
The commands that compile and link start with that word. There is a slash in it, and the file that
is launched is the one that was looked at, exactly when the path starts at the root or has two
components at least; otherwise a command of that name is searched for. -/
theorem program_of_foundAt {compiler : Option String} {further front later : List String}
    {candidate : String} {path : Path}
    (hnamed : named host compiler further = front ++ candidate :: later)
    (hvain : ∀ other ∈ front, find host other = .ok none)
    (hfound : FoundAt host candidate path) :
    resolve host compiler further = .ok path.text ∧
      (∀ settings files,
        (Toolchain.compileCommand settings path.text files).head? = some path.text ∧
          (Toolchain.linkCommand settings path.text files).head? = some path.text) ∧
      ('/' ∈ path.text.toList ↔ path.isAbsolute = true ∨ 2 ≤ path.parts.length) ∧
      Program.ofWord path.text
        = if path.isAbsolute = true ∨ 2 ≤ path.parts.length then .file path
          else .command path.text := by
  have hdecided : DecidedBy host (named host compiler further) (.ok (some path.text)) :=
    ⟨front, candidate, later, hnamed, hvain, hfound.find_eq⟩
  refine ⟨?_, fun settings files => ⟨rfl, rfl⟩, Path.slash_mem_text_iff hfound.isNormal,
    Program.ofWord_text hfound.isNormal⟩
  rw [resolve_eq, (findFirst_eq_iff (by simp)).mpr hdecided]

/-- A host with a compiler in a directory of the project, and another one among the commands. -/
def toolHost : Host :=
  { bareHost with tree := ⟨[(["tools"], .directory), (["tools", "cc"], .file .empty)]⟩ }

/-- A path with two components is launched as that path, however it is spelled. -/
theorem program_of_foundAt_tools :
    FoundAt toolHost ".//tools/./cc/" ⟨.relative, ["tools", "cc"]⟩ ∧
      resolve toolHost (some "/opt/cc") [".//tools/./cc/"] = .ok "tools/cc" ∧
      Program.ofWord "tools/cc" = .file ⟨.relative, ["tools", "cc"]⟩ := by
  have hfound : FoundAt toolHost ".//tools/./cc/" ⟨.relative, ["tools", "cc"]⟩ :=
    ⟨⟨".//tools/./cc/", by decide +kernel, by decide, by decide⟩, by decide +kernel⟩
  have hnamed : named toolHost (some "/opt/cc") [".//tools/./cc/"]
      = ["/opt/cc"] ++ ".//tools/./cc/" :: ["cc", "gcc", "clang"] := by decide +kernel
  have hvain : ∀ other ∈ ["/opt/cc"], find toolHost other = .ok none := by decide +kernel
  obtain ⟨hresolve, -, -, hprogram⟩ := program_of_foundAt hnamed hvain hfound
  exact ⟨hfound, hresolve, hprogram⟩

/-- A host with a compiler in its working directory, and another one among the commands. -/
def localHost : Host :=
  { bareHost with tree := ⟨[(["cc"], .file .empty)]⟩ }

/-- A compiler in the working directory is asked for by its path, looked at, and found. The word
that comes of it has no slash in it, so what is launched is the command of that name, which is
another file. -/
theorem command_localCompiler :
    FoundAt localHost "./cc" ⟨.relative, ["cc"]⟩ ∧
      resolve localHost (some "./cc") [] = .ok "cc" ∧ '/' ∉ "cc".toList ∧
      Program.ofWord "cc" = .command "cc" ∧
      Entries.get? localHost.commands "cc" = some "/usr/bin/cc" :=
  ⟨⟨⟨"./cc", by decide +kernel, by decide, by decide⟩, by decide +kernel⟩, by decide +kernel,
    by decide, by decide, by decide⟩

end HeaderBind.Compiler
