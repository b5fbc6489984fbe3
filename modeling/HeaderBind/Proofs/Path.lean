import HeaderBind.Path
import HeaderBind.Proofs.Text.Ascii

/-!
# `HeaderBind.Proofs.Path`: resolved paths

A path that was resolved starts at the root, leads upwards nowhere, and every component of it can be
a name (`IsResolved`). Such a path is the place that it leads to, so what the file tree does with it
can be said in terms of places. `isResolved_of_resolve` is how such paths come about: an absolute
path is resolved without a look at the working directory. Only a zero character keeps a path from
being resolved where there are no links (`resolve_eq`), and `isUsable_ofString_iff` finds it in the
text that spells the path.
-/

set_option autoImplicit false

namespace HeaderBind.Path

/-- A path that is the place it leads to. -/
structure IsResolved (path : Path) : Prop where
  anchor : path.anchor = .root
  plain : ".." ∉ path.parts
  usable : path.isUsable = true

/-- A text spells a usable path unless there is a zero character in it. -/
theorem isUsable_ofString_iff {text : String} :
    (ofString text).isUsable = true ↔ '\x00' ∉ text.toList := by
  have hpieces : (∃ piece ∈ text.toList.splitOn '/', '\x00' ∈ piece) ↔ '\x00' ∈ text.toList := by
    rw [← Text.mem_intercalate_iff (by decide : '\x00' ≠ '/'), List.intercalate_splitOn]
  simp only [← hpieces, ofString, isUsable, List.all_eq_true, List.forall_mem_map,
    List.mem_filter, String.toList_ofList, List.contains_eq_mem, Bool.not_eq_true',
    decide_eq_false_iff_not, not_exists, not_and]
  refine forall_congr' fun piece => ⟨fun h hpiece hzero => ?_, fun h hpiece => h hpiece.1⟩
  -- Neither the empty piece nor a point has a zero character in it, so the piece is a step.
  have hstep : isStep piece = true := by
    rw [isStep, Bool.and_eq_true, bne_iff_ne]
    constructor
    · cases piece with
      | nil => cases hzero
      | cons first rest => rfl
    · rintro rfl
      exact absurd hzero (by decide)
  exact h ⟨hpiece, hstep⟩ hzero

/-- A component that does not lead upwards leads one level down. -/
theorem step_of_ne {part : String} (h : part ≠ "..") (place : List String) :
    step place part = place ++ [part] :=
  if_neg h

/-- Components that are followed one after the other leave none that leads upwards, and only such as
there were. -/
theorem foldl_step_subset (parts : List String) {place : List String} (hplain : ".." ∉ place) :
    ".." ∉ parts.foldl step place ∧ ∀ part ∈ parts.foldl step place, part ∈ place ++ parts := by
  induction parts generalizing place with
  | nil => exact ⟨hplain, fun part hpart => List.mem_append_left _ hpart⟩
  | cons part parts ih =>
      by_cases hup : part = ".."
      · -- Going up drops a component of the place.
        have hsubset : ∀ other ∈ place.dropLast, other ∈ place :=
          fun other hother => (List.dropLast_sublist place).subset hother
        have hdropped : ".." ∉ place.dropLast := fun h => hplain (hsubset _ h)
        obtain ⟨hplain', hparts⟩ := ih hdropped
        simp only [List.foldl_cons, step, if_pos hup]
        refine ⟨hplain', fun other hother => ?_⟩
        rcases List.mem_append.mp (hparts other hother) with hplace | hrest
        · exact List.mem_append_left _ (hsubset other hplace)
        · exact List.mem_append_right _ (List.mem_cons_of_mem _ hrest)
      · have hgrown : ".." ∉ place ++ [part] := by
          simp [hplain, Ne.symm hup]
        obtain ⟨hplain', hparts⟩ := ih hgrown
        simp only [List.foldl_cons, step_of_ne hup]
        refine ⟨hplain', fun other hother => ?_⟩
        simpa using hparts other hother

/-! ### Links -/

/-- A place without a link stands for itself. -/
theorem enter_of_unlinked {links : List (List String × Path)} {place : List String}
    (h : links.lookup place = none) (fuel : Nat) (followed : List (List String)) :
    enter links fuel followed place = .ok place := by
  rw [enter.eq_def]
  simp only [h]

/-- What comes of resolving a path on a disk. -/
theorem resolveOn_eq_ok_iff {disk : Disk} {path resolved : Path} {workingDirectory : List String} :
    path.resolveOn disk workingDirectory = .ok resolved ↔
      path.isUsable = true ∧
        resolved = ⟨.root, disk.follow (path.startOf workingDirectory) path.parts⟩ ∧
        disk.loops resolved.parts = false := by
  simp only [resolveOn]
  cases path.isUsable with
  | false => simp
  | true =>
      by_cases hloops : disk.loops (disk.follow (path.startOf workingDirectory) path.parts) = true
      · rw [if_neg (by simp), if_pos hloops]
        refine iff_of_false nofun ?_
        rintro ⟨-, rfl, hfound⟩
        rw [hloops] at hfound
        cases hfound
      · rw [if_neg (by simp), if_neg hloops]
        constructor
        · intro h
          cases h
          exact ⟨rfl, rfl, by simpa using hloops⟩
        · rintro ⟨-, rfl, -⟩
          rfl

/-- Where there are no links, components are followed as they stand. -/
theorem advance_enter_nil (fuel : Nat) (followed : List (List String)) (place parts : List String) :
    advance (enter [] fuel followed) place parts = .ok (parts.foldl step place) := by
  induction parts generalizing place with
  | nil => rfl
  | cons part parts ih =>
      by_cases hup : part = ".."
      · simp only [advance, List.foldl_cons, step, if_pos hup, ih]
      · have hentered : enter [] fuel followed (place ++ [part]) = .ok (place ++ [part]) :=
          enter_of_unlinked rfl _ _
        simp only [advance, if_neg hup, hentered, ih, List.foldl_cons, step_of_ne hup]

/-- What comes of resolving a path: it is refused for a zero character and for nothing else. -/
theorem resolve_eq (path : Path) (workingDirectory : List String) :
    path.resolve workingDirectory
      = if path.isUsable then
          .ok ⟨.root, path.parts.foldl step (path.startOf workingDirectory)⟩
        else .error .zeroCharacter := by
  have hfollow : ∀ place, Disk.plain.follow place path.parts = path.parts.foldl step place :=
    fun place => by
      rw [Disk.follow, Disk.plain, advance_enter_nil]
  simp only [resolve, resolveOn, hfollow]
  cases path.isUsable <;> rfl

/-- What was resolved starts at the root. -/
theorem anchor_of_resolve {path resolved : Path} {workingDirectory : List String}
    (h : path.resolve workingDirectory = .ok resolved) : resolved.anchor = .root := by
  by_cases husable : path.isUsable = true
  · rw [resolve_eq, if_pos husable] at h
    cases h
    rfl
  · rw [resolve_eq, if_neg husable] at h
    cases h

/-- What was resolved from a place leads upwards nowhere. -/
theorem plain_of_resolve {path resolved : Path} {workingDirectory : List String}
    (hplace : ".." ∉ workingDirectory) (h : path.resolve workingDirectory = .ok resolved) :
    ".." ∉ resolved.parts := by
  have hstart : ".." ∉ path.startOf workingDirectory := by
    rw [startOf]
    split
    · exact List.not_mem_nil
    · exact hplace
  by_cases husable : path.isUsable = true
  · rw [resolve_eq, if_pos husable] at h
    cases h
    exact (foldl_step_subset path.parts hstart).1
  · rw [resolve_eq, if_neg husable] at h
    cases h

/-- An absolute path is resolved by itself. -/
theorem isResolved_of_resolve {path resolved : Path} {workingDirectory : List String}
    (habsolute : path.isAbsolute = true) (h : path.resolve workingDirectory = .ok resolved) :
    resolved.IsResolved := by
  rw [resolve_eq, startOf, if_pos habsolute] at h
  split at h
  · rename_i husable
    cases h
    obtain ⟨hplain, hparts⟩ := foldl_step_subset path.parts (List.not_mem_nil (a := ".."))
    refine ⟨rfl, hplain, List.all_eq_true.mpr fun part hpart => ?_⟩
    exact List.all_eq_true.mp husable part (by simpa using hparts part hpart)
  · cases h

/-- A path seen from a resolved one is absolute. -/
theorem isAbsolute_under {directory : Path} (h : directory.anchor = .root) (path : Path) :
    (directory.under path).isAbsolute = true := by
  unfold under
  split
  · assumption
  · show (directory.anchor != .relative) = true
    rw [h]
    rfl

theorem IsResolved.isAbsolute {path : Path} (h : path.IsResolved) : path.isAbsolute = true := by
  rw [Path.isAbsolute, h.anchor]
  rfl

/-- Resolved paths are told apart by their components. -/
theorem IsResolved.eq_of_parts {path other : Path} (h : path.IsResolved) (hother : other.IsResolved)
    (hparts : path.parts = other.parts) : path = other := by
  cases path
  cases other
  cases h.anchor
  cases hother.anchor
  cases hparts
  rfl

/-- The path of the directory that leads to a resolved path. -/
theorem IsResolved.parent {path : Path} (h : path.IsResolved) : path.parent.IsResolved where
  anchor := h.anchor
  plain := fun hup => h.plain ((List.dropLast_sublist _).subset hup)
  usable := List.all_eq_true.mpr fun part hpart =>
    List.all_eq_true.mp h.usable part ((List.dropLast_sublist _).subset hpart)

/-- The spelling of a resolved path. -/
theorem IsResolved.text_eq {path : Path} (h : path.IsResolved) :
    path.text = "/" ++ "/".intercalate path.parts := by
  rw [text, h.anchor, if_neg fun hpoint => nomatch hpoint.1]
  rfl

/-- The path of a directory in front is not longer. -/
theorem IsResolved.utf8ByteSize_text_parent_le {path : Path} (h : path.IsResolved) :
    path.parent.text.utf8ByteSize ≤ path.text.utf8ByteSize := by
  rw [h.text_eq, h.parent.text_eq]
  rcases List.eq_nil_or_concat path.parts with hnil | ⟨front, last, hparts⟩
  · simp [Path.parent, hnil]
  · have hparent : path.parent.parts = front := by
      show path.parts.dropLast = front
      rw [hparts, List.concat_eq_append, List.dropLast_concat]
    rw [hparent, hparts, List.concat_eq_append]
    cases front with
    | nil => simp
    | cons first rest =>
        rw [String.intercalate_append_of_ne_nil (List.cons_ne_nil _ _) (List.cons_ne_nil _ _)]
        simp only [String.utf8ByteSize_append]
        omega

end HeaderBind.Path
