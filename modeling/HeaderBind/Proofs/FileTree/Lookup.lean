import HeaderBind.Proofs.FileTree.Write

/-!
# `HeaderBind.Proofs.FileTree.Lookup`: what comes of a path, told by what lies where

A path is looked up, and a file is written, one component at a time. In a tree neither has to be
followed: what lies at the place of the path and in front of it decides what comes of it.

* A path that is too long to be looked up (`TooLong`) is refused (`locate_of_tooLong`). Any other
  one leads to what lies at its place (`locate_of_node`), or meets nothing or a file
  (`locate_of_none`).
* Making directories is refused only by a file on the way or by a name that is too long (`Barred`),
  or for want of room (`barred_of_makeChain`), and so is writing a file, if no directory lies at its
  place (`barred_of_write`).
* After a file was written, there is the file, there are directories in front of it, and everywhere
  else is what was there (`Written.node?_eq`).
-/

set_option autoImplicit false

namespace HeaderBind.FileTree

open Effect

variable {tree after : FileTree} {workingDirectory : Location}

/-! ### Components one after the other -/

/-- How components that are followed from a place come to an obstacle. -/
inductive Stopped (tree : FileTree) (place : Location) (parts : List String) : Obstacle → Prop
  | missing : Stopped tree place parts .missing
  /-- A further component is looked up in a file. -/
  | blocked {front back : List String} {part : String} {held : ByteArray}
      (split : parts = front ++ part :: back)
      (there : tree.node? (place ++ front) = some (.file held)) : Stopped tree place parts .blocked
  /-- A component that is too long is looked up in a directory. -/
  | tooLong {front back : List String} {part : String} (split : parts = front ++ part :: back)
      (there : tree.node? (place ++ front) = some .directory)
      (long : nameLimit < part.utf8ByteSize) : Stopped tree place parts .tooLong

/-- The same one component earlier. -/
theorem Stopped.cons {place : Location} {part : String} {parts : List String} {obstacle : Obstacle}
    (h : Stopped tree (place ++ [part]) parts obstacle) :
    Stopped tree place (part :: parts) obstacle := by
  cases h with
  | missing => exact .missing
  | @blocked front back other held split there =>
      have hsplit : part :: parts = (part :: front) ++ other :: back := by rw [split]; rfl
      exact .blocked hsplit (by simpa using there)
  | @tooLong front back other split there long =>
      have hsplit : part :: parts = (part :: front) ++ other :: back := by rw [split]; rfl
      exact .tooLong hsplit (by simpa using there) long

theorem stopped_of_walk {parts : List String} {place : Location} {obstacle : Obstacle}
    (hplain : ".." ∉ parts) (h : tree.walk place parts = .error obstacle) :
    Stopped tree place parts obstacle := by
  induction parts generalizing place with
  | nil =>
      rw [walk] at h
      split at h
      · cases h
      · cases h
        exact .missing
  | cons part parts ih =>
      have hpart : part ≠ ".." := fun heq => hplain (heq ▸ List.mem_cons_self)
      rw [walk] at h
      split at h
      · rename_i hdirectory
        split at h
        · rename_i hlong
          cases h
          exact .tooLong rfl (by rwa [List.append_nil]) hlong
        · rw [Path.step_of_ne hpart] at h
          exact (ih (fun hup => hplain (List.mem_cons_of_mem _ hup)) h).cons
      · rename_i held hfile
        cases h
        exact .blocked rfl (by rwa [List.append_nil])
      · cases h
        exact .missing

/-- In front of something there are directories, from the one that it lies in to the root. -/
theorem Closed.directory_of_prefix_dropLast (h : tree.Closed) {place farther : Location}
    {node : Node} (hnode : tree.node? farther = some node) (hway : place <+: farther.dropLast) :
    tree.node? place = some .directory := by
  have hparent := h farther (by rw [hnode]; exact Option.some_ne_none node)
  obtain ⟨back, hback⟩ := hway
  by_cases hend : back = []
  · rwa [← hback, hend, List.append_nil] at hparent
  · exact h.directory_of_node (by rwa [hback]) hend

section Closed

variable (hclosed : tree.Closed)
include hclosed

/-- In a tree, something in a place is reached unless a component is too long. -/
theorem walk_of_node {parts : List String} {place : Location} {node : Node}
    (hplain : ".." ∉ parts) (hshort : ∀ part ∈ parts, part.utf8ByteSize ≤ nameLimit)
    (hnode : tree.node? (place ++ parts) = some node) :
    tree.walk place parts = .ok (place ++ parts, node) := by
  induction parts generalizing place with
  | nil =>
      rw [List.append_nil] at hnode ⊢
      rw [walk, hnode]
  | cons part parts ih =>
      have hpart : part ≠ ".." := fun heq => hplain (heq ▸ List.mem_cons_self)
      obtain ⟨hhere, hrest⟩ := List.forall_mem_cons.mp hshort
      have hdirectory : tree.node? place = some .directory :=
        hclosed.directory_of_node hnode (List.cons_ne_nil part parts)
      have hsplit : place ++ part :: parts = place ++ [part] ++ parts := by simp
      rw [hsplit] at hnode ⊢
      rw [walk, hdirectory, Path.step_of_ne hpart]
      simp only [if_neg (Nat.not_lt_of_le hhere)]
      exact ih (fun hup => hplain (List.mem_cons_of_mem _ hup)) hrest hnode

/-- In a tree, a component that is too long stops the walk if a directory is in front of it. -/
theorem walk_of_long {front back : List String} {part : String} {place : Location}
    (hplain : ".." ∉ front) (hdirectory : tree.node? (place ++ front) = some .directory)
    (hlong : nameLimit < part.utf8ByteSize) :
    tree.walk place (front ++ part :: back) = .error .tooLong := by
  induction front generalizing place with
  | nil =>
      rw [List.append_nil] at hdirectory
      rw [List.nil_append, walk, hdirectory]
      simp only [if_pos hlong]
  | cons first front ih =>
      have hfirst : first ≠ ".." := fun heq => hplain (heq ▸ List.mem_cons_self)
      have hhere : tree.node? place = some .directory :=
        hclosed.directory_of_node hdirectory (List.cons_ne_nil first front)
      rw [List.cons_append, walk, hhere, Path.step_of_ne hfirst]
      -- An earlier component may be too long as well.
      by_cases hearlier : nameLimit < first.utf8ByteSize
      · simp only [if_pos hearlier]
      · simp only [if_neg hearlier]
        exact ih (fun hup => hplain (List.mem_cons_of_mem _ hup)) (by simpa using hdirectory)

end Closed

/-! ### Paths -/

/-- A path is too long to be looked up: all of it is, or a component that is looked up in a
directory. -/
inductive TooLong (tree : FileTree) (path : Path) : Prop
  | whole (long : pathLimit < path.text.utf8ByteSize) : TooLong tree path
  | component {front back : List String} {part : String}
      (split : path.parts = front ++ part :: back) (there : tree.node? front = some .directory)
      (long : nameLimit < part.utf8ByteSize) : TooLong tree path

/-- A path that is not too long as a whole can be asked about. -/
theorem admitted_of_not_tooLong {path : Path} (hpath : path.IsResolved)
    (hshort : ¬ tree.TooLong path) : Admitted path where
  toIsResolved := hpath
  fits := Nat.le_of_not_lt fun hlong => hshort (.whole hlong)

section Closed

variable (hclosed : tree.Closed) {path : Path} (hpath : path.IsResolved)
include hclosed

/-- The components of a path to something are not too long if the path is not. -/
theorem utf8ByteSize_le_of_node {node : Node} (hshort : ¬ tree.TooLong path)
    (hnode : tree.node? path.parts = some node) :
    ∀ part ∈ path.parts, part.utf8ByteSize ≤ nameLimit := by
  intro part hpart
  refine Nat.le_of_not_lt fun hlong => hshort ?_
  obtain ⟨front, back, hsplit⟩ := List.append_of_mem hpart
  rw [hsplit] at hnode
  exact .component hsplit
    (hclosed.directory_of_node hnode (List.cons_ne_nil part back)) hlong

include hpath

theorem locate_of_tooLong (h : tree.TooLong path) :
    tree.locate workingDirectory path = .error .tooLong := by
  by_cases hwhole : pathLimit < path.text.utf8ByteSize
  · rw [locate, hpath.usable, if_neg (by simp), if_pos hwhole]
  · have hadmitted : Admitted path := ⟨hpath, Nat.le_of_not_lt hwhole⟩
    cases h with
    | whole long => exact absurd long hwhole
    | @component front back part split there long =>
        have hplain : ".." ∉ front := fun hup =>
          hpath.plain (split ▸ List.mem_append_left _ hup)
        rw [hadmitted.locate_eq, split]
        exact walk_of_long hclosed hplain there long

variable (hshort : ¬ tree.TooLong path)
include hshort

theorem locate_of_node {node : Node} (hnode : tree.node? path.parts = some node) :
    tree.locate workingDirectory path = .ok (path.parts, node) := by
  rw [(admitted_of_not_tooLong hpath hshort).locate_eq]
  exact walk_of_node hclosed hpath.plain (utf8ByteSize_le_of_node hclosed hshort hnode) hnode

omit hclosed in
theorem locate_of_none (hnone : tree.node? path.parts = none) :
    tree.locate workingDirectory path = .error .missing ∨
      tree.locate workingDirectory path = .error .blocked := by
  rw [(admitted_of_not_tooLong hpath hshort).locate_eq]
  cases hwalk : tree.walk [] path.parts with
  | ok reached =>
      obtain ⟨place, node⟩ := reached
      obtain ⟨hplace, hnode⟩ := walk_eq_ok hpath.plain hwalk
      rw [hplace, List.nil_append, hnone] at hnode
      cases hnode
  | error obstacle =>
      cases stopped_of_walk hpath.plain hwalk with
      | missing => exact .inl rfl
      | blocked => exact .inr rfl
      | tooLong split there long => exact absurd (.component split there long) hshort

end Closed

/-! ### What is in the way of a file -/

/-- What keeps directories from being made on a way: a name that is too long, or a file. -/
inductive Barred (tree : FileTree) (way : Location) : Prop
  | name {part : String} (mem : part ∈ way) (long : nameLimit < part.utf8ByteSize) :
      Barred tree way
  | file {place : Location} {held : ByteArray} (onTheWay : place <+: way)
      (there : tree.node? place = some (.file held)) : Barred tree way

theorem Barred.further {way farther : Location} (h : Barred tree way) (hway : way <+: farther) :
    Barred tree farther := by
  cases h with
  | name mem long => exact .name (hway.subset mem) long
  | file onTheWay there => exact .file (onTheWay.trans hway) there

/-- A walk from the root that does not just miss something is barred. -/
theorem Stopped.barred {way : List String} {obstacle : Obstacle}
    (h : Stopped tree [] way obstacle) : obstacle = .missing ∨ Barred tree way := by
  cases h with
  | missing => exact .inl rfl
  | blocked split there => exact .inr (.file ⟨_, split.symm⟩ there)
  | tooLong split there long => exact .inr (.name (by rw [split]; simp) long)

theorem barred_of_attempt_refused {front : List String} {last : String} {fault : Fault}
    (hpath : Admitted ⟨.root, front ++ [last]⟩)
    (h : tree.attempt workingDirectory ⟨.root, front ++ [last]⟩ = .refused fault) :
    Barred tree (front ++ [last]) := by
  cases hwalk : tree.walk [] front with
  | ok reached =>
      obtain ⟨place, node⟩ := reached
      cases node with
      | directory =>
          rcases long_or_file_of_attempt_refused hpath hwalk h with hlong | ⟨held, hfile⟩
          · exact .name (by simp) hlong
          · exact .file (List.prefix_refl _) hfile
      | file held =>
          obtain ⟨hplace, hfile⟩ := walk_eq_ok hpath.front.plain hwalk
          rw [hplace] at hfile
          exact .file (List.prefix_append front [last]) hfile
  | error obstacle =>
      rcases (stopped_of_walk hpath.front.plain hwalk).barred with rfl | hbarred
      · rw [attempt_concat hpath, hwalk] at h
        cases h
      · exact hbarred.further (List.prefix_append front [last])

/-- The attempt that follows when the directories in front were made is refused for the same
reasons. -/
theorem barred_of_second_attempt {front : List String} {last : String} {places : List Location}
    {middle : FileTree} {fault : Fault} (hpath : Admitted ⟨.root, front ++ [last]⟩)
    (hpaved : Paved tree front places middle)
    (hleads : middle.walk [] front = .ok (front, .directory))
    (h : middle.attempt workingDirectory ⟨.root, front ++ [last]⟩ = .refused fault) :
    Barred tree (front ++ [last]) := by
  rcases long_or_file_of_attempt_refused hpath hleads h with hlong | ⟨held, hfile⟩
  · exact .name (by simp) hlong
  · -- Only directories were added since, so the file was there at first.
    exact .file (List.prefix_refl _) (hpaved.file_before hfile)

/-- Directories are made on every way that is not barred, if there is room for it. -/
theorem barred_of_makeChain (hclosed : tree.Closed) (reversed : List String) {room : Nat}
    (hpath : Admitted ⟨.root, reversed.reverse⟩) {fault : Fault}
    (h : makeChain workingDirectory .root reversed room tree = .error fault after) :
    Barred tree reversed.reverse ∨ tree.TooNested room reversed.reverse := by
  induction reversed generalizing room fault after with
  | nil => cases h
  | cons last before ih =>
      rw [List.reverse_cons] at hpath ⊢
      rw [makeChain, get_bind_apply] at h
      simp only [List.reverse_cons] at h
      -- The last directory is tried first. Those in front of it are made, and it is tried again,
      -- only if something is missing there.
      cases hfirst : tree.attempt workingDirectory ⟨.root, before.reverse ++ [last]⟩ with
      | done _ =>
          rw [hfirst] at h
          cases h
      | refused _ => exact .inl (barred_of_attempt_refused hpath hfirst)
      | tooDeep =>
          cases room with
          | zero =>
              refine .inr ⟨before.reverse, List.prefix_append _ _, ?_, by simp⟩
              exact hclosed.node?_eq_none_of_walk hpath.front.plain
                (walk_of_attempt_tooDeep hpath hfirst)
          | succ room =>
              simp only [hfirst, if_neg (Nat.succ_ne_zero room), Nat.add_sub_cancel] at h
              have hchain := chained_makeChain workingDirectory hclosed room before hpath.front
              rcases of_bind_error h with hfront | ⟨_, middle, hfront, h⟩
              · exact (ih hpath.front hfront).imp
                  (fun hbarred => hbarred.further (List.prefix_append _ _))
                  tooNested_concat_iff.mpr
              · rw [hfront] at hchain
                cases hchain with
                | ready paved leads reached =>
                    cases hsecond : middle.attempt workingDirectory
                        ⟨.root, before.reverse ++ [last]⟩ with
                    | done _ =>
                        simp only [get_bind_apply, hsecond] at h
                        cases h
                    | refused _ => exact .inl (barred_of_second_attempt hpath paved leads hsecond)
                    | tooDeep =>
                        have hmissing := walk_of_attempt_tooDeep hpath hsecond
                        rw [leads] at hmissing
                        cases hmissing

/-- Once there are directories in front of a file, it is refused for its name or for a directory at
its place, which was there before. -/
theorem long_or_directory_of_overwrite {front : List String} {last : String}
    {places : List Location} {middle : FileTree} {content : ByteArray} {fault : Fault}
    (hpath : Admitted ⟨.root, front ++ [last]⟩) (hpaved : Paved tree front places middle)
    (hleads : middle.walk [] front = .ok (front, .directory))
    (h : overwrite workingDirectory ⟨.root, front ++ [last]⟩ content middle
      = .error fault after) :
    nameLimit < last.utf8ByteSize ∨ tree.node? (front ++ [last]) = some .directory := by
  -- The place of the file is longer than the way to it.
  have hbehind : ¬ front ++ [last] <+: front := by
    intro hprefix
    have hlength := hprefix.length_le
    rw [List.length_append, List.length_singleton] at hlength
    omega
  rw [overwrite_concat hpath hleads, hpaved.node?_of_not_prefix hbehind] at h
  split at h
  · rename_i hlong
    exact .inl hlong
  · split at h
    · rename_i hthere
      exact .inr hthere
    · cases h

/-- A file is written unless the way to it is barred or too long for the room, its name is too long,
or a directory lies at its place. -/
theorem barred_of_write [Interpreter] (hclosed : tree.Closed) {path : Path} (hpath : Admitted path)
    {content : ByteArray} {fault : Fault}
    (h : write workingDirectory path content tree = .error fault after) :
    (Barred tree path.parent.parts ∨ tree.TooNested Interpreter.makeRoom path.parent.parts) ∨
      (∃ part ∈ path.parts, nameLimit < part.utf8ByteSize) ∨
        tree.node? path.parts = some .directory := by
  obtain ⟨anchor, parts⟩ := path
  obtain rfl : anchor = .root := hpath.anchor
  have hchain := chained_makeDirectories workingDirectory hclosed hpath.parent
  rcases of_bind_error h with hfront | ⟨_, middle, hfront, h⟩
  · have hbarred := barred_of_makeChain hclosed _
      (by rw [List.reverse_reverse]; exact hpath.parent) hfront
    rw [List.reverse_reverse] at hbarred
    exact .inl hbarred
  · rw [hfront] at hchain
    cases hchain with
    | ready paved leads reached =>
        rcases List.eq_nil_or_concat parts with rfl | ⟨front, last, rfl⟩
        · exact .inr (.inr rfl)
        · rw [List.concat_eq_append] at hpath h paved leads ⊢
          have hparent : (⟨.root, front ++ [last]⟩ : Path).parent.parts = front :=
            List.dropLast_concat
          rw [hparent] at leads paved
          rcases long_or_directory_of_overwrite hpath paved leads h with hlong | hthere
          · exact .inr (.inl ⟨last, by simp, hlong⟩)
          · exact .inr (.inr hthere)

/-! ### What lies where after a file was written -/

section Written

variable {room : Nat} {path : Path} {content : ByteArray} (hpath : Admitted path)
  (h : Written tree room path content (.ok () after))
include hpath h

/-- The root is no file. -/
theorem Written.parts_ne_nil : path.parts ≠ [] := by
  intro hroot
  cases h with
  | done paved closed holds reached =>
      have hnode := (of_read hpath (holds [])).2
      rw [hroot] at hnode
      cases hnode

/-- The file is there, there are directories in front of it, and all else is as it was. -/
theorem Written.node?_eq (place : Location) :
    after.node? place
      = if place = path.parts then some (.file content)
        else if place <+: path.parts then some .directory else tree.node? place := by
  have hnonempty := h.parts_ne_nil hpath
  cases h with
  | @done places middle paved closed holds reached =>
      have hfile : (middle.put path.parts (.file content)).node? path.parts
          = some (.file content) := by
        rw [node?_put hnonempty, if_pos rfl]
      split
      · rename_i hplace
        rw [hplace, hfile]
      · rename_i hplace
        split
        · -- The tree is closed, with the file behind the place.
          rename_i hfront
          obtain ⟨back, hback⟩ := hfront
          have hend : back ≠ [] := by
            intro hnil
            exact hplace (by simpa [hnil] using hback)
          exact closed.directory_of_node (by rwa [hback]) hend
        · rename_i hfront
          rw [node?_put hnonempty, if_neg hplace]
          exact paved.node?_of_not_prefix fun hway =>
            hfront (hway.trans (List.dropLast_prefix _))

/-- No component of its path is too long. -/
theorem Written.short : ∀ part ∈ path.parts, part.utf8ByteSize ≤ nameLimit := by
  cases h with
  | done paved closed holds reached =>
      have hread := holds []
      refine utf8ByteSize_le_of_node closed (fun hlong => ?_) (of_read hpath hread).2
      rw [FileTree.read, locate_of_tooLong closed hpath.toIsResolved hlong] at hread
      cases hread

omit hpath in
/-- There was room for the directories in front of the file. -/
theorem Written.not_tooNested : ¬ tree.TooNested room path.parent.parts := by
  cases h with
  | done paved closed holds reached => exact reached

/-- What was in front of the file before was a directory, or nothing. -/
theorem Written.front_before {place : Location} (hfront : place <+: path.parts)
    (hne : place ≠ path.parts) :
    tree.node? place = some .directory ∨ tree.node? place = none := by
  have hnonempty := h.parts_ne_nil hpath
  have hnode := h.node?_eq hpath place
  rw [if_neg hne, if_pos hfront] at hnode
  cases h with
  | done paved closed holds reached =>
      cases hbefore : tree.node? place with
      | none => exact .inr rfl
      | some node =>
          rw [node?_put hnonempty, if_neg hne, paved.node?_of_some hbefore] at hnode
          exact .inl hnode

end Written

/-- Where a directory was made on the way to a place, no file was in front of the place. -/
theorem Paved.ne_file {way : Location} {places : List Location} (h : Paved tree way places after)
    (hclosed : tree.Closed) {made place farther : Location} (hmade : made ∈ places)
    (hway : way <+: farther) (hplace : place <+: farther) (held : ByteArray) :
    tree.node? place ≠ some (.file held) := by
  intro hfile
  have hmissing := h.missing made hmade
  -- Both places are on one way, so one of them is in front of the other.
  rcases List.prefix_or_prefix_of_prefix hplace ((h.onTheWay made hmade).trans hway) with
    ⟨back, rfl⟩ | hbehind
  · have hnew : after.node? (place ++ back) = some .directory := by
      rw [h.added, node?_withDirectories, hmissing]
      exact if_pos hmade
    have hkept := h.node?_of_some hfile
    by_cases hback : back = []
    · rw [hback, List.append_nil, hkept] at hnew
      cases hnew
    · have hdirectory := h.closed.directory_of_node hnew hback
      rw [hkept] at hdirectory
      cases hdirectory
  · rw [hclosed.node?_eq_none_of_prefix hmissing hbehind] at hfile
    cases hfile

end HeaderBind.FileTree
