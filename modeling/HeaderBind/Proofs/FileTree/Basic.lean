import HeaderBind.FileTree.Basic
import HeaderBind.Proofs.Path

/-!
# `HeaderBind.Proofs.FileTree.Basic`: what lies where, and where paths lead

The operations on a file tree are described by what lies at each place before and after:
`node?_put`, `node?_withDirectories`, and for scratch directories `remove_put_of_below` with
`remove_of_vacant`, which together undo everything that was put below a fresh place.

A list of places need not be a tree. It is one if a directory is in front of everything
(`FileTree.Closed`), and putting something into a directory keeps it one (`Closed.put`).

A resolved path leads to the place of its components and nowhere else, so `walk` is followed one
component at a time from the last one (`walk_concat`), which is how directories are made.
-/

set_option autoImplicit false

namespace HeaderBind.FileTree

variable {tree : FileTree}

/-! ### What lies where -/

@[simp] theorem node?_nil : tree.node? [] = some .directory :=
  rfl

theorem node?_eq_find? {place : Location} (hplace : place ≠ []) :
    tree.node? place = (tree.entries.find? fun entry => entry.1 == place).map Prod.snd :=
  if_neg hplace

/-- The entries that lie at a place are those with the place in front. -/
theorem any_iff_node? {place : Location} (hplace : place ≠ []) :
    (tree.entries.any fun entry => entry.1 == place) = true ↔ tree.node? place ≠ none := by
  rw [node?_eq_find? hplace, ne_eq, Option.map_eq_none_iff, List.find?_eq_none]
  simp

/-- At a place where nothing lies, a node is put behind all others. -/
theorem put_of_missing {place : Location} (h : tree.node? place = none) (node : Node) :
    tree.put place node = ⟨tree.entries ++ [(place, node)]⟩ := by
  have hplace : place ≠ [] := by
    rintro rfl
    cases h
  rw [put, if_neg]
  rw [any_iff_node? hplace]
  exact fun hsome => hsome h

/-- Putting a node at a place is seen at that place only. -/
theorem node?_put {place : Location} (hplace : place ≠ []) (node : Node) (other : Location) :
    (tree.put place node).node? other = if other = place then some node else tree.node? other := by
  by_cases hother : other = []
  · subst hother
    rw [if_neg (Ne.symm hplace)]
    rfl
  rw [put]
  split
  · -- Something lies there already: it is replaced where it stands in the list.
    rename_i hsome
    rw [node?_eq_find? hother, node?_eq_find? hother, List.find?_map]
    have hkey : ((fun entry : Location × Node => entry.1 == other) ∘
        fun entry => if entry.1 = place then (place, node) else entry)
          = fun entry => entry.1 == other := by
      funext entry
      by_cases h : entry.1 = place
      · simp [h]
      · simp [h]
    rw [hkey]
    split
    · rename_i hsame
      subst hsame
      cases hfind : tree.entries.find? fun entry => entry.1 == other with
      | none =>
          rw [any_iff_node? hplace, node?_eq_find? hplace, hfind] at hsome
          exact absurd rfl hsome
      | some entry =>
          have hat : entry.1 = other := by simpa using List.find?_some hfind
          simp [hat]
    · rename_i hdiffer
      cases hfind : tree.entries.find? fun entry => entry.1 == other with
      | none => rfl
      | some entry =>
          have hat : entry.1 = other := by simpa using List.find?_some hfind
          simp [hat, hdiffer]
  · -- Nothing lies there: the new entry stands behind all others.
    rename_i hnone
    rw [node?_eq_find? hother, node?_eq_find? hother, List.find?_append]
    split
    · rename_i hsame
      subst hsame
      have hfind : tree.entries.find? (fun entry => entry.1 == other) = none :=
        List.find?_eq_none.mpr fun entry hentry hat =>
          hnone (List.any_eq_true.mpr ⟨entry, hentry, hat⟩)
      simp [hfind]
    · rename_i hdiffer
      simp [Ne.symm hdiffer]

/-- The tree with directories added behind everything else, in the order given. -/
def withDirectories (tree : FileTree) (places : List Location) : FileTree :=
  ⟨tree.entries ++ places.map fun place => (place, .directory)⟩

@[simp] theorem withDirectories_nil : tree.withDirectories [] = tree := by
  rw [withDirectories, List.map_nil, List.append_nil]

/-- One more directory, at a place where nothing lies. -/
theorem put_withDirectories {places : List Location} {place : Location}
    (h : (tree.withDirectories places).node? place = none) :
    (tree.withDirectories places).put place .directory
      = tree.withDirectories (places ++ [place]) := by
  rw [put_of_missing h, withDirectories, withDirectories, List.map_append, List.append_assoc]
  rfl

/-- Added directories are seen where nothing was. -/
theorem node?_withDirectories (places : List Location) (place : Location) :
    (tree.withDirectories places).node? place
      = match tree.node? place with
        | some node => some node
        | none => if place ∈ places then some .directory else none := by
  by_cases hplace : place = []
  · subst hplace
    rfl
  · rw [node?_eq_find? hplace, node?_eq_find? hplace, withDirectories, List.find?_append]
    cases tree.entries.find? fun entry => entry.1 == place with
    | some entry => rfl
    | none =>
        rw [List.find?_map]
        simp only [Option.map_none, Option.none_or]
        split
        · rename_i hmem
          have hfind : (places.find? fun other => other == place) = some place := by
            cases hfound : places.find? fun other => other == place with
            | none => exact absurd (List.find?_eq_none.mp hfound place hmem) (by simp)
            | some other =>
                have hat : other = place := by simpa using List.find?_some hfound
                rw [hat]
          show ((places.find? fun other => other == place).map _).map _ = _
          rw [hfind]
          rfl
        · rename_i hmem
          show ((places.find? fun other => other == place).map _).map _ = _
          rw [List.find?_eq_none.mpr]
          · rfl
          · rintro other hother hat
            exact hmem ((beq_iff_eq.mp hat) ▸ hother)

/-! ### Scratch places -/

/-- Nothing lies at a place or below it. -/
def Vacant (tree : FileTree) (place : Location) : Prop :=
  ∀ entry ∈ tree.entries, ¬ place <+: entry.1

/-- Removing what is not there changes nothing. -/
theorem remove_of_vacant {place : Location} (h : tree.Vacant place) : tree.remove place = tree := by
  have hkept : tree.entries.filter (fun entry => !place.isPrefixOf entry.1) = tree.entries := by
    refine List.filter_eq_self.mpr fun entry hentry => ?_
    have hnot := h entry hentry
    rw [← List.isPrefixOf_iff_prefix, Bool.not_eq_true] at hnot
    rw [hnot, Bool.not_false]
  rw [remove, hkept]

/-- What is put at a place or below it goes when the place is removed. -/
theorem remove_put_of_below {place below : Location} (h : place <+: below) (node : Node) :
    (tree.put below node).remove place = tree.remove place := by
  have hbelow : place.isPrefixOf below = true := List.isPrefixOf_iff_prefix.mpr h
  rw [put]
  split
  · simp only [remove, FileTree.mk.injEq]
    induction tree.entries with
    | nil => rfl
    | cons entry entries ih =>
        by_cases hat : entry.1 = below
        · simp [hat, hbelow, ih]
        · simp [hat, List.filter_cons, ih]
  · simp [remove, hbelow]

/-! ### Trees -/

/-- A directory is in front of everything. -/
def Closed (tree : FileTree) : Prop :=
  ∀ place, tree.node? place ≠ none → tree.node? place.dropLast = some .directory

/-- It is enough to look at the entries. -/
theorem closed_iff_entries :
    tree.Closed ↔ ∀ entry ∈ tree.entries, tree.node? entry.1.dropLast = some .directory := by
  constructor
  · intro h entry hentry
    by_cases hroot : entry.1 = []
    · rw [hroot]
      rfl
    · refine h entry.1 ((any_iff_node? hroot).mp ?_)
      exact List.any_eq_true.mpr ⟨entry, hentry, beq_self_eq_true _⟩
  · intro h place hsome
    by_cases hroot : place = []
    · rw [hroot]
      rfl
    · obtain ⟨entry, hentry, hat⟩ := List.any_eq_true.mp ((any_iff_node? hroot).mpr hsome)
      rw [← beq_iff_eq.mp hat]
      exact h entry hentry

instance (tree : FileTree) : Decidable tree.Closed :=
  decidable_of_iff _ closed_iff_entries.symm

/-- Every place on the way to something is a directory. -/
theorem Closed.directory_of_prefix (h : tree.Closed) {front back : Location}
    (hsome : tree.node? (front ++ back) ≠ none) (hback : back ≠ []) :
    tree.node? front = some .directory := by
  induction back generalizing front with
  | nil => exact absurd rfl hback
  | cons part back ih =>
      have hnext : tree.node? (front ++ [part]) ≠ none := by
        by_cases hnil : back = []
        · rwa [hnil] at hsome
        · rw [ih (by simpa using hsome) hnil]
          exact nofun
      have hparent := h _ hnext
      rwa [List.dropLast_concat] at hparent

/-- The same where it is known what lies there. -/
theorem Closed.directory_of_node (h : tree.Closed) {front back : Location} {node : Node}
    (hnode : tree.node? (front ++ back) = some node) (hback : back ≠ []) :
    tree.node? front = some .directory :=
  h.directory_of_prefix (by rw [hnode]; exact Option.some_ne_none node) hback

/-- Behind a place where nothing lies there is nothing. -/
theorem Closed.node?_eq_none_of_prefix (h : tree.Closed) {place farther : Location}
    (hmissing : tree.node? place = none) (hway : place <+: farther) :
    tree.node? farther = none := by
  obtain ⟨back, rfl⟩ := hway
  cases hnode : tree.node? (place ++ back) with
  | none => rfl
  | some node =>
      by_cases hback : back = []
      · rw [hback, List.append_nil, hmissing] at hnode
        cases hnode
      · have hdirectory := h.directory_of_node hnode hback
        rw [hmissing] at hdirectory
        cases hdirectory

/-- Something put into a directory keeps a tree a tree, unless it hides a directory. -/
theorem Closed.put (h : tree.Closed) {place : Location} {node : Node} (hplace : place ≠ [])
    (hparent : tree.node? place.dropLast = some .directory)
    (hnode : tree.node? place = some .directory → node = .directory) :
    (tree.put place node).Closed := by
  intro other hsome
  have hlength : place.dropLast ≠ place := by
    intro heq
    have := congrArg List.length heq
    have := List.length_pos_iff.mpr hplace
    rw [List.length_dropLast] at *
    omega
  -- What lies in front of a node of the new tree was a directory before.
  have hdirectory : tree.node? other.dropLast = some .directory := by
    rw [node?_put hplace] at hsome
    split at hsome
    · rename_i heq
      rw [heq, hparent]
    · exact h other hsome
  rw [node?_put hplace]
  split
  · -- The new node is itself what lies in front, so it took the place of a directory.
    rename_i heq
    rw [heq] at hdirectory
    rw [hnode hdirectory]
  · exact hdirectory

/-! ### Where paths lead -/

/-- Components without one that leads upwards lead to the place they spell. -/
theorem walk_eq_ok {parts : List String} {place reached : Location} {node : Node}
    (hplain : ".." ∉ parts) (h : tree.walk place parts = .ok (reached, node)) :
    reached = place ++ parts ∧ tree.node? reached = some node := by
  induction parts generalizing place with
  | nil =>
      rw [walk] at h
      split at h
      · rename_i found hfound
        cases h
        exact ⟨(List.append_nil _).symm, hfound⟩
      · cases h
  | cons part parts ih =>
      have hpart : part ≠ ".." := fun heq => hplain (heq ▸ List.mem_cons_self)
      rw [walk] at h
      split at h
      · split at h
        · cases h
        · rw [Path.step_of_ne hpart] at h
          have := ih (fun hup => hplain (List.mem_cons_of_mem _ hup)) h
          simpa using this
      · cases h
      · cases h

/-- The last component is looked up in the directory that those in front of it lead to. -/
theorem walk_concat {front : List String} {place : Location} {last : String}
    (hplain : ".." ∉ front ++ [last]) :
    tree.walk place (front ++ [last])
      = match tree.walk place front with
        | .ok (_, .directory) =>
          if nameLimit < last.utf8ByteSize then .error .tooLong
          else
            match tree.node? (place ++ (front ++ [last])) with
            | some node => .ok (place ++ (front ++ [last]), node)
            | none => .error .missing
        | .ok (_, .file _) => .error .blocked
        | .error obstacle => .error obstacle := by
  induction front generalizing place with
  | nil =>
      have hlast : last ≠ ".." := fun heq => hplain (by simp [heq])
      simp only [List.nil_append, walk, Path.step_of_ne hlast]
      cases tree.node? place with
      | none => rfl
      | some node => cases node <;> rfl
  | cons part front ih =>
      have hpart : part ≠ ".." := fun heq => hplain (by simp [heq])
      have hrest : tree.walk (place ++ [part]) (front ++ [last]) = _ :=
        ih fun hup => hplain (List.mem_cons_of_mem _ hup)
      simp only [List.cons_append, walk, Path.step_of_ne hpart]
      cases tree.node? place with
      | none => rfl
      | some node =>
          cases node with
          | file content => rfl
          | directory =>
              by_cases hlong : nameLimit < part.utf8ByteSize
              · simp only [if_pos hlong]
              · simp only [if_neg hlong, hrest, List.append_assoc, List.cons_append,
                  List.nil_append]

/-- Where a path leads is decided by what lies on the way. -/
theorem walk_congr {other : FileTree} {parts : List String} {place : Location}
    (hplain : ".." ∉ parts)
    (hway : ∀ front, front <+: parts →
      other.node? (place ++ front) = tree.node? (place ++ front)) :
    other.walk place parts = tree.walk place parts := by
  have hhere := hway [] List.nil_prefix
  rw [List.append_nil] at hhere
  induction parts generalizing place with
  | nil => rw [walk, walk, hhere]
  | cons part parts ih =>
      have hpart : part ≠ ".." := fun heq => hplain (heq ▸ List.mem_cons_self)
      have hbelow : ∀ front, front <+: parts →
          other.node? (place ++ [part] ++ front) = tree.node? (place ++ [part] ++ front) := by
        intro front hfront
        have := hway (part :: front) (List.cons_prefix_cons.mpr ⟨rfl, hfront⟩)
        simpa using this
      rw [walk, walk, hhere, Path.step_of_ne hpart,
        ih (fun hup => hplain (List.mem_cons_of_mem _ hup)) hbelow
          (by simpa using hbelow [] List.nil_prefix)]

/-- A node put at the end of a way changes nothing on the way. -/
theorem walk_put_concat {front : List String} (hplain : ".." ∉ front) (last : String)
    (node : Node) : (tree.put (front ++ [last]) node).walk [] front = tree.walk [] front := by
  refine walk_congr hplain fun before hbefore => ?_
  rw [List.nil_append, node?_put (by simp), if_neg]
  rintro rfl
  have := hbefore.length_le
  rw [List.length_append, List.length_singleton] at this
  omega

/-- Nothing is missing on the way to a place when everything up to it is there. -/
theorem walk_ne_missing {parts : List String} {place : Location} (hplain : ".." ∉ parts)
    (hthere : ∀ front, front <+: parts → tree.node? (place ++ front) ≠ none) :
    tree.walk place parts ≠ .error .missing := by
  induction parts generalizing place with
  | nil =>
      have := hthere [] (List.prefix_refl _)
      rw [List.append_nil] at this
      rw [walk]
      split
      · exact nofun
      · rename_i hnone
        exact absurd hnone this
  | cons part parts ih =>
      have hpart : part ≠ ".." := fun heq => hplain (heq ▸ List.mem_cons_self)
      have hhere := hthere [] (List.nil_prefix)
      rw [List.append_nil] at hhere
      rw [walk]
      split
      · split
        · exact nofun
        · rw [Path.step_of_ne hpart]
          refine ih (fun hup => hplain (List.mem_cons_of_mem _ hup)) fun front hfront => ?_
          have := hthere (part :: front) (List.cons_prefix_cons.mpr ⟨rfl, hfront⟩)
          simpa using this
      · exact nofun
      · rename_i hnone
        exact absurd hnone hhere

/-- A resolved path that is not too long to be asked about. -/
structure Admitted (path : Path) : Prop extends path.IsResolved where
  fits : path.text.utf8ByteSize ≤ pathLimit

/-- The directory in front of an admitted path. -/
theorem Admitted.parent {path : Path} (h : Admitted path) : Admitted path.parent where
  toIsResolved := h.toIsResolved.parent
  fits := Nat.le_trans h.utf8ByteSize_text_parent_le h.fits

/-- The same with the components in front at hand. -/
theorem Admitted.front {front : List String} {last : String}
    (h : Admitted ⟨.root, front ++ [last]⟩) : Admitted ⟨.root, front⟩ := by
  have hparent : (⟨.root, front ++ [last]⟩ : Path).parent = ⟨.root, front⟩ :=
    congrArg (Path.mk .root) List.dropLast_concat
  exact hparent ▸ h.parent

/-- An admitted path leads where its components lead from the root. -/
theorem Admitted.locate_eq {path : Path} (h : Admitted path) (workingDirectory : Location) :
    tree.locate workingDirectory path = tree.walk [] path.parts := by
  have hfits := h.fits
  rw [locate, h.usable, if_neg (by simp), if_neg (by omega), Path.startOf, h.isAbsolute]
  rfl

/-- The directory that the last component of such a path is looked up in. -/
theorem Admitted.locate_parent_eq {front : List String} {last : String}
    (h : Admitted ⟨.root, front ++ [last]⟩) (workingDirectory : Location) :
    tree.locate workingDirectory (⟨.root, front ++ [last]⟩ : Path).parent
      = tree.walk [] front := by
  rw [h.parent.locate_eq]
  exact congrArg (tree.walk []) List.dropLast_concat

/-- A path by which a file was read is not too long, and every component of it can be a name. -/
theorem admitted_of_read {path : Path} {workingDirectory : Location} {content : ByteArray}
    (hanchor : path.anchor = .root) (hplain : ".." ∉ path.parts)
    (h : tree.read workingDirectory path = .ok content) : Admitted path := by
  rw [FileTree.read, locate] at h
  by_cases husable : path.isUsable = true
  · by_cases hlong : pathLimit < path.text.utf8ByteSize
    · simp only [husable, Bool.not_true, Bool.false_eq_true, if_false, if_pos hlong] at h
      cases h
    · exact ⟨⟨hanchor, hplain, husable⟩, Nat.le_of_not_lt hlong⟩
  · simp only [husable, Bool.not_false, if_true] at h
    cases h

end HeaderBind.FileTree
