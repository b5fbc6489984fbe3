import HeaderBind.Config.Target
import HeaderBind.Proofs.Artifact.Apart
import HeaderBind.Proofs.Name
import HeaderBind.Proofs.Path.Spelling

/-!
# `HeaderBind.Proofs.Config.DefaultOutput`: where modules go that are given no place

A target may leave open where its module goes (`Target.Unplaced`). Then the name of the module
decides: its points lead into directories below the root, and its last piece names the file
(`ModuleFile`, `outputPath_of_unplaced`). The pieces of a name have no point in them, and the name
of a file has one, in front of its ending. So the file of one module is never a directory on the way
to that of another one, also where a module has the name of a package
(`ModuleFile.not_isBelow`), and different modules have different files (`ModuleFile.eq_iff`).

All this is about the paths that the names spell. Resolving a path follows symbolic links, and a
directory below the root that is a link leads anywhere, also out of the root, or to where the name
of another module leads (`shared_linkedPackage`). So the way below the root is to be clear of links
(`Path.Disk.IsClear`); what the root itself leads through does not matter. `outputPath_apart` puts
this together, for any root. Files that are apart in this way can both be written wherever each of
them can.
-/

set_option autoImplicit false

namespace HeaderBind

/-! ### The pieces of the name of a module -/

/-- Another text for each character of joined pieces that the pieces do not change by, and a text
behind the last piece. -/
theorem Text.map_intercalate_append {f : Char → Char} (separator : Char) (front : List (List Char))
    (last tail : List Char) (h : ∀ piece ∈ front ++ [last], ∀ c ∈ piece, f c = c) :
    ([separator].intercalate (front ++ [last])).map f ++ tail
      = [f separator].intercalate (front ++ [last ++ tail]) := by
  have hsame : ∀ piece ∈ front ++ [last], piece.map f = piece := fun piece hpiece =>
    (List.map_congr_left (h piece hpiece)).trans (List.map_id piece)
  induction front with
  | nil =>
      rw [List.nil_append, List.nil_append, List.intercalate_singleton,
        List.intercalate_singleton, hsame last (by simp)]
  | cons first front ih =>
      have hrest : ∀ piece ∈ front ++ [last], piece ∈ first :: front ++ [last] :=
        fun piece hpiece => List.mem_cons_of_mem first hpiece
      rw [List.cons_append, List.cons_append, List.intercalate_cons_of_ne_nil (by simp),
        List.intercalate_cons_of_ne_nil (by simp), List.map_append, List.map_append,
        hsame first (by simp), List.append_assoc,
        ih (fun piece hpiece => h piece (hrest piece hpiece))
          fun piece hpiece => hsame piece (hrest piece hpiece)]
      rfl

namespace Name

/-- What stands between two points in the name of a module. A line feed can stand at its end. -/
structure IsPiece (piece : String) : Prop where
  nonempty : piece.toList ≠ []
  plain : ∀ c ∈ piece.toList, isNameChar c = true ∨ c = '\n'

theorem IsPiece.notMem {piece : String} (h : IsPiece piece) {c : Char}
    (hc : isNameChar c = false) (hfeed : c ≠ '\n') : c ∉ piece.toList := by
  intro hmem
  rcases h.plain c hmem with hname | rfl
  · rw [hname] at hc
    cases hc
  · exact hfeed rfl

/-- Pieces are cut apart at the points between them: there is no point in any of them. -/
theorem splitOn_pieces {front : List String} {last : String}
    (h : ∀ piece ∈ front ++ [last], IsPiece piece) :
    (['.'].intercalate (front.map String.toList ++ [last.toList])).splitOn '.'
      = (front ++ [last]).map String.toList := by
  have hmap : front.map String.toList ++ [last.toList] = (front ++ [last]).map String.toList := by
    simp
  rw [hmap]
  refine List.splitOn_intercalate '.' (fun piece hpiece => ?_) (by simp)
  obtain ⟨text, htext, rfl⟩ := List.mem_map.mp hpiece
  exact (h text htext).notMem (by decide) (by decide)

/-- The name of a module is made of pieces with points between them. -/
theorem exists_pieces {s : String} (h : isModuleName s = true) :
    ∃ front last, (∀ piece ∈ front ++ [last], IsPiece piece) ∧
      s.toList = ['.'].intercalate (front.map String.toList ++ [last.toList]) := by
  have hids : ∀ piece ∈ (dropFinalNewline s.toList).splitOn '.', isIdentifier piece = true :=
    List.all_eq_true.mp h
  have hjoined : ['.'].intercalate ((dropFinalNewline s.toList).splitOn '.')
      = dropFinalNewline s.toList := List.intercalate_splitOn '.'
  rcases List.eq_nil_or_concat ((dropFinalNewline s.toList).splitOn '.') with hnil |
    ⟨front, last, hpieces⟩
  · exact absurd hnil (List.splitOn_ne_nil _ _)
  · rw [hpieces, List.concat_eq_append] at hids hjoined
    -- The line feed, if there is one, belongs to the last piece.
    obtain ⟨tail, htail, hs⟩ : ∃ tail, (∀ c ∈ tail, c = '\n') ∧
        s.toList = dropFinalNewline s.toList ++ tail := by
      rcases eq_dropFinalNewline s.toList with hsame | hfeed
      · exact ⟨[], by simp, by rwa [List.append_nil]⟩
      · exact ⟨['\n'], by simp, hfeed⟩
    refine ⟨front.map String.ofList, String.ofList (last ++ tail), ?_, ?_⟩
    · intro piece hpiece
      rcases List.mem_append.mp hpiece with hfront | hlast
      · obtain ⟨cs, hcs, rfl⟩ := List.mem_map.mp hfront
        obtain ⟨hne, hall⟩ := Text.isNameChar_of_isIdentifier (hids cs (List.mem_append_left _ hcs))
        exact ⟨by rwa [String.toList_ofList], fun c hc => .inl (hall c (by simpa using hc))⟩
      · rw [List.mem_singleton.mp hlast]
        obtain ⟨hne, hall⟩ := Text.isNameChar_of_isIdentifier (hids last (by simp))
        refine ⟨by simp [hne], fun c hc => ?_⟩
        rw [String.toList_ofList] at hc
        exact (List.mem_append.mp hc).imp (hall c) (htail c)
    · have hback : (front.map String.ofList).map String.toList = front := by simp
      have hkept := Text.map_intercalate_append (f := id) '.' front last tail fun _ _ _ _ => rfl
      rw [List.map_id] at hkept
      rw [hback, String.toList_ofList, hs, ← hjoined, hkept]
      rfl

end Name

/-! ### The path that follows from a name -/

namespace Path

/-- Whether a path leads to something in a directory or farther below it. -/
def IsBelow (path directory : Path) : Prop :=
  path.anchor = directory.anchor ∧ ∃ part rest, path.parts = directory.parts ++ part :: rest

/-- Components that lead upwards nowhere are followed one after the other. -/
theorem foldl_step_eq_append {parts : List String} (h : ".." ∉ parts) (place : List String) :
    parts.foldl step place = place ++ parts := by
  induction parts generalizing place with
  | nil => rw [List.append_nil]; rfl
  | cons part parts ih =>
      rw [List.mem_cons, not_or] at h
      rw [List.foldl_cons, step_of_ne (Ne.symm h.1), ih h.2, List.append_assoc]
      rfl

/-- No link stands on the way that some components lead from a place, and the system finds its
end. -/
structure Disk.IsClear (disk : Disk) (place parts : List String) : Prop where
  unlinked : ∀ front, front ≠ [] → front <+: parts → disk.links.lookup (place ++ front) = none
  found : disk.loops (place ++ parts) = false

/-- Components are followed one after the other: those behind go on from where the first ones lead
to, or are taken as they stand where the first ones got stuck. -/
theorem advance_append {enter : List String → Except (List String) (List String)}
    (place parts later : List String) :
    advance enter place (parts ++ later)
      = match advance enter place parts with
        | .ok next => advance enter next later
        | .error stuck => .error (later.foldl step stuck) := by
  induction parts generalizing place with
  | nil => rfl
  | cons part parts ih =>
      rw [List.cons_append, advance, advance]
      split
      · exact ih _
      · cases enter (place ++ [part]) with
        | ok next => exact ih next
        | error stuck => simp only [List.foldl_append]

/-- Where no link stands on the way, components lead to where they say. -/
theorem advance_of_unlinked {links : List (List String × Path)} {parts : List String}
    (hplain : ".." ∉ parts) {place : List String} (fuel : Nat)
    (h : ∀ front, front ≠ [] → front <+: parts → links.lookup (place ++ front) = none) :
    advance (enter links fuel []) place parts = .ok (place ++ parts) := by
  induction parts generalizing place with
  | nil => rw [List.append_nil]; rfl
  | cons part parts ih =>
      rw [List.mem_cons, not_or] at hplain
      have hhere : links.lookup (place ++ [part]) = none :=
        h [part] (List.cons_ne_nil _ _) (List.prefix_append [part] parts)
      have hrest : ∀ front, front ≠ [] → front <+: parts →
          links.lookup (place ++ [part] ++ front) = none := by
        intro front hne hprefix
        rw [List.append_assoc]
        exact h (part :: front) (List.cons_ne_nil _ _) ((List.prefix_cons_inj part).mpr hprefix)
      simp only [advance, if_neg (Ne.symm hplain.1), enter_of_unlinked hhere, ih hplain.2 hrest,
        List.append_assoc, List.singleton_append]

/-- A path without components that lead upwards stays below the place that its root leads to, if the
way there is clear. -/
theorem resolveOn_under {disk : Disk} {root base : Path} {workingDirectory : List String}
    (hroot : root.resolveOn disk workingDirectory = .ok base) {parts : List String}
    (hplain : ".." ∉ parts) (husable : (⟨.relative, parts⟩ : Path).isUsable = true)
    (hclear : disk.IsClear base.parts parts) :
    (root.under ⟨.relative, parts⟩).resolveOn disk workingDirectory
      = .ok { base with parts := base.parts ++ parts } := by
  obtain ⟨hrootUsable, rfl, -⟩ := resolveOn_eq_ok_iff.mp hroot
  have hunder : root.under ⟨.relative, parts⟩ = { root with parts := root.parts ++ parts } := rfl
  -- From the place of the root on, whether it was reached or not, the components are all there is.
  have hfollow : disk.follow (root.startOf workingDirectory) (root.parts ++ parts)
      = disk.follow (root.startOf workingDirectory) root.parts ++ parts := by
    have hunlinked := hclear.unlinked
    simp only [Disk.follow, advance_append] at hunlinked ⊢
    cases hreached : advance (enter disk.links disk.links.length [])
        (root.startOf workingDirectory) root.parts with
    | ok next =>
        rw [hreached] at hunlinked
        simp only [advance_of_unlinked hplain _ hunlinked]
    | error stuck => exact foldl_step_eq_append hplain stuck
  refine resolveOn_eq_ok_iff.mpr ⟨?_, ?_, hclear.found⟩
  · rw [hunder, isUsable, List.all_append, Bool.and_eq_true]
    exact ⟨hrootUsable, husable⟩
  · rw [hunder]
    exact congrArg _ hfollow.symm

end Path

namespace Target

open Name (IsPiece)

/-- A target whose module goes where the name of the module says: neither the caller nor the target
names a place. An empty text names none. -/
structure Unplaced (target : Json) (given : Option String) (name : String) : Prop where
  module : target.field? "module" = some (.string name)
  isModuleName : Name.isModuleName name = true
  notGiven : ∀ path ∈ given, path = ""
  notConfigured : (target.field? "output_path").bind Json.nonEmptyText? = none

section Pieces

variable {front : List String} {last : String} (h : ∀ piece ∈ front ++ [last], IsPiece piece)
include h

/-- The components of the file of a module can be written between slashes. -/
theorem isComponent_of_pieces : ∀ part ∈ front ++ [last ++ ".py"], Path.IsComponent part := by
  intro part hpart
  rcases List.mem_append.mp hpart with hfront | hlast
  · have hpiece := h part (List.mem_append_left _ hfront)
    refine ⟨?_, hpiece.notMem (by decide) (by decide)⟩
    have hpoint : part.toList ≠ ['.'] := fun heq =>
      hpiece.notMem (c := '.') (by decide) (by decide) (heq ▸ List.mem_singleton_self '.')
    simp [Path.isStep, hpiece.nonempty, hpoint]
  · have hpiece := h last (by simp)
    rw [List.mem_singleton.mp hlast]
    refine ⟨?_, ?_⟩
    · -- With its ending the name is longer than a point.
      have hlong : last.toList ++ ['.', 'p', 'y'] ≠ ['.'] := fun heq => by
        have hlength := congrArg List.length heq
        simp at hlength
      simp [Path.isStep, hlong]
    · rw [String.toList_append, List.mem_append, not_or]
      exact ⟨hpiece.notMem (by decide) (by decide), by decide⟩

/-- None of them leads upwards, and all of them can be names. -/
theorem plain_of_pieces : ".." ∉ front ++ [last ++ ".py"] ∧
    (⟨.relative, front ++ [last ++ ".py"]⟩ : Path).isUsable = true := by
  have hlast : ∀ c ∈ last.toList, c ≠ '.' ∧ c ≠ '\x00' := fun c hc =>
    ⟨fun heq => (h last (by simp)).notMem (by decide) (by decide) (heq ▸ hc),
      fun heq => (h last (by simp)).notMem (by decide) (by decide) (heq ▸ hc)⟩
  constructor
  · intro hup
    rcases List.mem_append.mp hup with hfront | hfile
    · exact (h _ (List.mem_append_left _ hfront)).notMem (c := '.') (by decide) (by decide)
        (by decide)
    · -- The letters behind the point tell the file from the way upwards.
      have hmem : 'p' ∈ (last ++ ".py").toList := by simp
      rw [← List.mem_singleton.mp hfile] at hmem
      exact absurd hmem (by decide)
  · refine List.all_eq_true.mpr fun part hpart => ?_
    rw [Bool.not_eq_true', List.contains_eq_mem, decide_eq_false_iff_not]
    rcases List.mem_append.mp hpart with hfront | hfile
    · exact (h part (List.mem_append_left _ hfront)).notMem (by decide) (by decide)
    · rw [List.mem_singleton.mp hfile, String.toList_append, List.mem_append, not_or]
      exact ⟨(h last (by simp)).notMem (by decide) (by decide), by decide⟩

/-- The points of a name become slashes, and the ending of the file is put behind its last piece. -/
theorem ofString_defaultOutput {name : String}
    (hname : name.toList = ['.'].intercalate (front.map String.toList ++ [last.toList])) :
    Path.ofString (defaultOutput name) = ⟨.relative, front ++ [last ++ ".py"]⟩ := by
  have hnormal : (⟨.relative, front ++ [last ++ ".py"]⟩ : Path).IsNormal :=
    isComponent_of_pieces h
  have hpoint : ∀ piece ∈ front.map String.toList ++ [last.toList], ∀ c ∈ piece,
      (if c = '.' then '/' else c) = c := by
    intro piece hpiece c hc
    obtain ⟨text, htext, rfl⟩ : ∃ text ∈ front ++ [last], text.toList = piece := by
      simpa [or_comm, eq_comm] using hpiece
    exact if_neg fun heq => (h text htext).notMem (by decide) (by decide) (heq ▸ hc)
  rw [← Path.ofString_text hnormal]
  refine congrArg Path.ofString (String.toList_injective ?_)
  rw [defaultOutput, String.toList_append, String.toList_ofList, hname,
    Text.map_intercalate_append '.' _ _ _ hpoint, Path.toList_text (by simp), Path.joined,
    List.map_append, List.map_singleton, String.toList_append]
  rfl

end Pieces

/-! ### The files of modules -/

/-- The file of a module below a root: a directory for each piece of its name but the last one, and
a file named after that. -/
inductive ModuleFile (base : Path) (name : String) : Path → Prop
  | intro {front : List String} {last : String} (pieces : ∀ piece ∈ front ++ [last], IsPiece piece)
      (spelled : name.toList = ['.'].intercalate (front.map String.toList ++ [last.toList])) :
      ModuleFile base name { base with parts := base.parts ++ (front ++ [last ++ ".py"]) }

/-- The components that the name of a module leads by from the root. -/
def defaultParts (name : String) : List String :=
  (Path.ofString (defaultOutput name)).parts

/-- A module without a place gets its file below the root, where no link stands on the way. -/
theorem outputPath_of_unplaced {target : Json} {given : Option String} {name : String}
    (h : Unplaced target given name) {disk : Path.Disk} {root base : Path}
    {workingDirectory : List String} (hroot : root.resolveOn disk workingDirectory = .ok base)
    (hclear : disk.IsClear base.parts (defaultParts name)) :
    ∃ path, outputPathOn disk target root workingDirectory given = .ok path ∧
      ModuleFile base name path := by
  obtain ⟨front, last, hpieces, hname⟩ := Name.exists_pieces h.isModuleName
  obtain ⟨hplain, husable⟩ := plain_of_pieces hpieces
  have hgiven : (given.filter fun path => !path.isEmpty) = none := by
    cases given with
    | none => rfl
    | some path =>
        rw [h.notGiven path rfl]
        rfl
  have hmodule : moduleName target = name := by
    rw [moduleName, h.module]
    rfl
  have hparts : defaultParts name = front ++ [last ++ ".py"] := by
    rw [defaultParts, ofString_defaultOutput hpieces hname]
  rw [hparts] at hclear
  refine ⟨_, ?_, .intro hpieces hname⟩
  simp only [outputPathOn, hgiven, h.notConfigured, Option.orElse_none, Option.getD_none, hmodule,
    ofString_defaultOutput hpieces hname, Path.resolveOn_under hroot hplain husable hclear]
  rfl

namespace ModuleFile

variable {base path other : Path} {name otherName : String}

theorem isBelow (h : ModuleFile base name path) : path.IsBelow base := by
  obtain ⟨pieces, -⟩ := h
  rename_i front last
  cases front with
  | nil => exact ⟨rfl, last ++ ".py", [], rfl⟩
  | cons first rest => exact ⟨rfl, first, rest ++ [last ++ ".py"], rfl⟩

theorem isResolved (h : ModuleFile base name path) (hbase : base.IsResolved) : path.IsResolved := by
  obtain ⟨pieces, -⟩ := h
  obtain ⟨hplain, husable⟩ := plain_of_pieces pieces
  refine ⟨hbase.anchor, ?_, ?_⟩
  · rw [List.mem_append, not_or]
    exact ⟨hbase.plain, hplain⟩
  · rw [Path.isUsable, List.all_append, Bool.and_eq_true]
    exact ⟨hbase.usable, husable⟩

/-- The pieces of a name are read off the path of its file, so modules with one file are one. -/
theorem eq_iff (h : ModuleFile base name path) (hother : ModuleFile base otherName other) :
    path = other ↔ name = otherName := by
  obtain ⟨pieces, spelled⟩ := h
  obtain ⟨pieces', spelled'⟩ := hother
  rename_i front last front' last'
  constructor
  · intro heq
    have hparts := List.append_cancel_left (congrArg Path.parts heq)
    obtain ⟨rfl, hfile⟩ := List.append_inj' hparts rfl
    have hlast : last = last' := (String.append_left_inj _).mp (List.singleton_inj.mp hfile)
    exact String.toList_injective (by rw [spelled, spelled', hlast])
  · rintro rfl
    have hboth := congrArg (List.splitOn '.') (spelled.symm.trans spelled')
    rw [Name.splitOn_pieces pieces, Name.splitOn_pieces pieces'] at hboth
    have hinjective : Function.Injective String.toList := fun _ _ => String.toList_injective
    obtain ⟨rfl, hlast⟩ := List.append_inj' (List.map_injective_iff.mpr hinjective hboth) rfl
    rw [List.singleton_inj.mp hlast]

/-- The name of a file has a point in it, and no directory on the way to one does. -/
theorem not_prefix (h : ModuleFile base name path) (hother : ModuleFile base otherName other)
    (hne : path ≠ other) : ¬ path.parts <+: other.parts := by
  obtain ⟨pieces, spelled⟩ := h
  obtain ⟨pieces', spelled'⟩ := hother
  rename_i front last front' last'
  rintro ⟨back, hback⟩
  simp only [List.append_assoc, List.append_cancel_left_eq] at hback
  rcases List.eq_nil_or_concat back with rfl | ⟨between, file, rfl⟩
  · exact hne (by rw [← hback, List.append_nil])
  · -- What stands in front of the other file are its directories.
    rw [List.concat_eq_append, ← List.append_assoc, ← List.append_assoc] at hback
    obtain ⟨hdirectories, -⟩ := List.append_inj' hback rfl
    have hpiece : IsPiece (last ++ ".py") :=
      pieces' _ (List.mem_append_left _ (hdirectories ▸ by simp))
    exact hpiece.notMem (c := '.') (by decide) (by decide) (by simp)

/-- Nothing lies below the file of a module. -/
theorem not_isBelow (h : ModuleFile base name path) (hother : ModuleFile base otherName other) :
    ¬ path.IsBelow other := by
  rintro ⟨-, part, rest, hparts⟩
  refine hother.not_prefix h (fun heq => ?_) (hparts ▸ List.prefix_append _ _)
  have hlength := congrArg List.length hparts
  rw [heq, List.length_append, List.length_cons] at hlength
  omega

end ModuleFile

/-- Modules that are given no place go to files strictly below the root, where no link stands on the
way there. Different modules have different files, and none of them is a directory on the way to
another one. So wherever each of the two files can be written alone, both can be written in a row,
and the first one stays as it was written. -/
theorem outputPath_apart [Interpreter] {disk : Path.Disk} {root base : Path}
    {workingDirectory : List String} (hroot : root.resolveOn disk workingDirectory = .ok base)
    {target other : Json} {given otherGiven : Option String} {name otherName : String}
    (htarget : Unplaced target given name) (hother : Unplaced other otherGiven otherName)
    (hclear : disk.IsClear base.parts (defaultParts name))
    (hotherClear : disk.IsClear base.parts (defaultParts otherName)) :
    ∃ path otherPath, outputPathOn disk target root workingDirectory given = .ok path ∧
      outputPathOn disk other root workingDirectory otherGiven = .ok otherPath ∧
      path.IsBelow base ∧ otherPath.IsBelow base ∧ (path = otherPath ↔ name = otherName) ∧
      ¬ path.IsBelow otherPath ∧ ¬ otherPath.IsBelow path ∧
      ∀ {host after : Host} {text otherText : String} {made : ArtifactStatus × String},
        name ≠ otherName → base.IsResolved → host.tree.Closed → text ≠ "" → otherText ≠ "" →
        Artifact.write path text .apply host = .ok made after →
        (∃ made last, Artifact.write otherPath otherText .apply host = .ok made last) →
        ∃ made last, Artifact.write otherPath otherText .apply after = .ok made last ∧
          last.tree.node? path.parts = after.tree.node? path.parts := by
  obtain ⟨path, hpath, hfile⟩ := outputPath_of_unplaced htarget hroot hclear
  obtain ⟨otherPath, hotherPath, hotherFile⟩ := outputPath_of_unplaced hother hroot hotherClear
  refine ⟨path, otherPath, hpath, hotherPath, hfile.isBelow, hotherFile.isBelow,
    hfile.eq_iff hotherFile, hfile.not_isBelow hotherFile, hotherFile.not_isBelow hfile, ?_⟩
  intro host after text otherText made hne hbase hclosed htext hotherText hwrite halone
  have hnePath : path ≠ otherPath := fun heq => hne ((hfile.eq_iff hotherFile).mp heq)
  have hapart : Artifact.Apart path otherPath :=
    ⟨hfile.not_prefix hotherFile hnePath, hotherFile.not_prefix hfile (Ne.symm hnePath)⟩
  exact Artifact.exists_write_after hclosed (hfile.isResolved hbase) (hotherFile.isResolved hbase)
    hapart htext hotherText hwrite halone

/-- A module next to a package of the same name, below the working directory. -/
theorem outputPath_apart_package :
    let root : Path := ⟨.relative, []⟩
    let package : Json := .object [("module", .string "a")]
    let inside : Json := .object [("module", .string "a.b"), ("output_path", .null)]
    outputPath package root ["srv"] (some "") = .ok ⟨.root, ["srv", "a.py"]⟩ ∧
      outputPath inside root ["srv"] none = .ok ⟨.root, ["srv", "a", "b.py"]⟩ ∧
      ¬ (⟨.root, ["srv", "a", "b.py"]⟩ : Path).IsBelow ⟨.root, ["srv", "a.py"]⟩ ∧
      ∃ made after last, Artifact.write ⟨.root, ["srv", "a.py"]⟩ "A = 1\n" .apply Compiler.bareHost
          = .ok made after ∧
        (∃ made, Artifact.write ⟨.root, ["srv", "a", "b.py"]⟩ "B = 2\n" .apply after
          = .ok made last) ∧
        last.tree.node? ["srv", "a.py"] = after.tree.node? ["srv", "a.py"] := by
  intro root package inside
  have hpackage : outputPath package root ["srv"] (some "") = .ok ⟨.root, ["srv", "a.py"]⟩ := by
    decide +kernel
  have hinside : outputPath inside root ["srv"] none = .ok ⟨.root, ["srv", "a", "b.py"]⟩ := by
    decide +kernel
  have hfirst : Unplaced package (some "") "a" := ⟨rfl, by decide, by simp, rfl⟩
  have hsecond : Unplaced inside none "a.b" := ⟨rfl, by decide, by simp, rfl⟩
  have hroot : root.resolveOn .plain ["srv"] = .ok ⟨.root, ["srv"]⟩ := rfl
  have hclear : ∀ parts, Path.Disk.plain.IsClear ["srv"] parts := fun _ =>
    ⟨fun _ _ _ => rfl, rfl⟩
  obtain ⟨path, otherPath, hpath, hotherPath, -, -, -, -, hbelow, hboth⟩ :=
    outputPath_apart hroot hfirst hsecond (hclear _) (hclear _)
  obtain rfl := Except.ok.inj (hpackage.symm.trans hpath)
  obtain rfl := Except.ok.inj (hinside.symm.trans hotherPath)
  have hclosed : Compiler.bareHost.tree.Closed := by decide +kernel
  have hwritten : ∀ file ∈ [(["srv", "a.py"], "A = 1\n"), (["srv", "a", "b.py"], "B = 2\n")],
      (match Artifact.write ⟨.root, file.1⟩ file.2 .apply Compiler.bareHost with
      | .ok _ _ => true
      | .error _ _ => false) = true := by
    decide +kernel
  have hdone : ∀ file ∈ [(["srv", "a.py"], "A = 1\n"), (["srv", "a", "b.py"], "B = 2\n")],
      ∃ made after, Artifact.write ⟨.root, file.1⟩ file.2 .apply Compiler.bareHost
        = .ok made after := by
    intro file hfile
    have hok := hwritten file hfile
    cases hwrite : Artifact.write ⟨.root, file.1⟩ file.2 .apply Compiler.bareHost with
    | ok made after => exact ⟨made, after, rfl⟩
    | error error after =>
        rw [hwrite] at hok
        cases hok
  obtain ⟨made, after, hwrite⟩ := hdone (["srv", "a.py"], "A = 1\n") (by simp)
  obtain ⟨madeLast, last, hlast, hkept⟩ := hboth (by decide) ⟨rfl, by decide, by decide⟩ hclosed
    (by decide) (by decide) hwrite (hdone (["srv", "a", "b.py"], "B = 2\n") (by simp))
  exact ⟨hpackage, hinside, hbelow, made, after, last, hwrite, ⟨madeLast, hlast⟩, hkept⟩

/-- Two modules without a place, below a directory in which the package of the first one is a link
to that of the second: both have the same path. Where the package is a link to a directory beside
the root, the path is not even below the root. -/
theorem shared_linkedPackage :
    let root : Path := ⟨.root, ["srv"]⟩
    let first : Json := .object [("module", .string "a.m")]
    let second : Json := .object [("module", .string "b.m")]
    let inside : Path.Disk := ⟨[(["srv", "a"], ⟨.relative, ["b"]⟩)], fun _ => false⟩
    let outside : Path.Disk := ⟨[(["srv", "a"], ⟨.relative, ["..", "elsewhere"]⟩)], fun _ => false⟩
    outputPathOn inside first root [] none = .ok ⟨.root, ["srv", "b", "m.py"]⟩ ∧
      outputPathOn inside second root [] none = .ok ⟨.root, ["srv", "b", "m.py"]⟩ ∧
      outputPathOn outside first root [] none = .ok ⟨.root, ["elsewhere", "m.py"]⟩ ∧
      ¬ (⟨.root, ["elsewhere", "m.py"]⟩ : Path).IsBelow root := by
  intro root first second inside outside
  refine ⟨by decide +kernel, by decide +kernel, by decide +kernel, ?_⟩
  rintro ⟨-, part, rest, hparts⟩
  exact absurd (List.cons.inj hparts).1 (by decide)

end Target

end HeaderBind
