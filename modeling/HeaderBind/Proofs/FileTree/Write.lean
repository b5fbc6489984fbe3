import HeaderBind.FileTree.Write
import HeaderBind.Proofs.Effect
import HeaderBind.Proofs.FileTree.Basic

/-!
# `HeaderBind.Proofs.FileTree.Write`: what writing a file leaves behind

Making the directories on the way to a file, and then the file, is not one step: a refusal may come
when some directories are there already. `Paved` says what can have happened to the tree by then,
which is that directories were added at places on the way where nothing was. Nothing else is ever
touched, and a tree stays a tree.

The induction is the one of `makeChain`, from the last component to the first. One attempt is given
as an equation in the directory in front (`attempt_concat`). A second attempt follows when the first
one found nothing in front; the tree being closed, nothing can lie at the place itself then, so only
a name that is too long is left to refuse it. `Chained` and `Written` therefore say that directories
stay behind for one reason only. How many calls there is room for goes down by one where the way
gets shorter by one, so there is enough room exactly if the first directory that is missing is not
too far in front (`TooNested`).

A file that was written is on the way to no other file, so the other files are read as before
(`Written.read_of_ne`).
-/

set_option autoImplicit false

namespace HeaderBind.FileTree

open Effect

variable {tree after : FileTree} {workingDirectory : Location}

/-! ### Directories on the way -/

/-- A tree to which directories were added at missing places on a way. -/
structure Paved (tree : FileTree) (way : Location) (places : List Location) (after : FileTree) :
    Prop where
  added : after = tree.withDirectories places
  onTheWay : ∀ place ∈ places, place <+: way
  missing : ∀ place ∈ places, tree.node? place = none
  closed : after.Closed

variable {way : Location} {places : List Location}

theorem Paved.nothing (h : tree.Closed) (way : Location) : Paved tree way [] tree where
  added := withDirectories_nil.symm
  onTheWay := nofun
  missing := nofun
  closed := h

/-- Whatever was there still is. -/
theorem Paved.node?_of_some (h : Paved tree way places after) {place : Location} {node : Node}
    (hnode : tree.node? place = some node) : after.node? place = some node := by
  rw [h.added, node?_withDirectories, hnode]

/-- A file that is there was there before. -/
theorem Paved.file_before (h : Paved tree way places after) {place : Location}
    {content : ByteArray} (hnode : after.node? place = some (.file content)) :
    tree.node? place = some (.file content) := by
  rw [h.added, node?_withDirectories] at hnode
  split at hnode
  · rename_i node hbefore
    rw [hbefore, hnode]
  · split at hnode <;> cases hnode

/-- A place that is not on the way is as it was. -/
theorem Paved.node?_of_not_prefix (h : Paved tree way places after) {place : Location}
    (hplace : ¬ place <+: way) : after.node? place = tree.node? place := by
  have hadded : place ∉ places := fun hmem => hplace (h.onTheWay place hmem)
  rw [h.added, node?_withDirectories, if_neg hadded]
  split
  · rename_i hbefore
    exact hbefore.symm
  · rename_i hbefore
    exact hbefore.symm

/-- One more directory, in one that is there. -/
theorem Paved.add (h : Paved tree way places after) {place : Location} (hplace : place ≠ [])
    (hway : place <+: way) (hmissing : after.node? place = none)
    (hparent : after.node? place.dropLast = some .directory) :
    Paved tree way (places ++ [place]) (after.put place .directory) where
  added := by
    rw [h.added] at hmissing ⊢
    exact put_withDirectories hmissing
  onTheWay := fun other hother => by
    rcases List.mem_append.mp hother with hold | hnew
    · exact h.onTheWay other hold
    · rwa [List.mem_singleton.mp hnew]
  missing := fun other hother => by
    rcases List.mem_append.mp hother with hold | hnew
    · exact h.missing other hold
    · rw [List.mem_singleton.mp hnew]
      -- What was at the place before would still be there.
      cases hbefore : tree.node? place with
      | none => rfl
      | some node => rw [h.node?_of_some hbefore] at hmissing; cases hmissing
  closed := h.closed.put hplace hparent fun _ => rfl

/-- A way leads on. -/
theorem Paved.further (h : Paved tree way places after) {farther : Location}
    (hway : way <+: farther) : Paved tree farther places after where
  added := h.added
  onTheWay := fun place hplace => (h.onTheWay place hplace).trans hway
  missing := h.missing
  closed := h.closed

/-! ### One directory -/

section Attempt

variable {front : List String} {last : String}

/-- An attempt to make a directory, given by what its path leads through: a directory has to be in
front, and nothing or a directory at the place itself. -/
theorem attempt_concat (hpath : Admitted ⟨.root, front ++ [last]⟩) :
    tree.attempt workingDirectory ⟨.root, front ++ [last]⟩
      = match tree.walk [] front with
        | .ok (_, .directory) =>
          if nameLimit < last.utf8ByteSize then
            .refused (.tooLong (⟨.root, front ++ [last]⟩ : Path).text)
          else
            match tree.node? (front ++ [last]) with
            | some .directory => .done tree
            | some (.file _) => .refused (.alreadyThere (⟨.root, front ++ [last]⟩ : Path).text)
            | none => .done (tree.put (front ++ [last]) .directory)
        | .ok (_, .file _) => .refused (.notADirectory (⟨.root, front ++ [last]⟩ : Path).text)
        | .error .missing => .tooDeep
        | .error obstacle => .refused (obstacle.fault ⟨.root, front ++ [last]⟩) := by
  have hplain : ".." ∉ front := fun hup => hpath.plain (List.mem_append_left _ hup)
  simp only [attempt, hpath.locate_eq, hpath.locate_parent_eq, walk_concat hpath.plain,
    List.nil_append, List.getLast?_concat]
  cases hwalk : tree.walk [] front with
  | error obstacle => cases obstacle <;> rfl
  | ok reached =>
      -- The place that is reached is spelled by the components.
      obtain ⟨place, node⟩ := reached
      have hplace := (walk_eq_ok hplain hwalk).1
      rw [List.nil_append] at hplace
      subst hplace
      cases node with
      | file content => rfl
      | directory =>
          by_cases hlong : nameLimit < last.utf8ByteSize
          · simp only [if_pos hlong]
            rfl
          · simp only [if_neg hlong]
            cases tree.node? (place ++ [last]) with
            | none => rfl
            | some node => cases node <;> rfl

variable (hpath : Admitted ⟨.root, front ++ [last]⟩)
include hpath

/-- What an attempt that succeeds adds, and that the path leads to the directory then. -/
theorem paved_of_attempt_done {middle : FileTree} (hpaved : Paved tree front places middle)
    (h : middle.attempt workingDirectory ⟨.root, front ++ [last]⟩ = .done after) :
    ∃ more, Paved tree (front ++ [last]) more after ∧
      after.walk [] (front ++ [last]) = .ok (front ++ [last], .directory) := by
  have hlonger := hpaved.further (List.prefix_append front [last])
  have hplain : ".." ∉ front := fun hup => hpath.plain (List.mem_append_left _ hup)
  rw [attempt_concat hpath] at h
  split at h
  · rename_i place hwalk
    obtain ⟨hplace, hdirectory⟩ := walk_eq_ok hplain hwalk
    rw [List.nil_append] at hplace
    subst hplace
    split at h
    · cases h
    · rename_i hshort
      split at h
      · rename_i hthere
        cases h
        refine ⟨places, hlonger, ?_⟩
        rw [walk_concat hpath.plain, hwalk]
        simp only [if_neg hshort, List.nil_append, hthere]
      · cases h
      · rename_i hmissing
        cases h
        have hnonempty : place ++ [last] ≠ [] := by simp
        refine ⟨places ++ [place ++ [last]],
          hlonger.add hnonempty (List.prefix_refl _) hmissing (by rwa [List.dropLast_concat]), ?_⟩
        rw [walk_concat hpath.plain, walk_put_concat hplain, hwalk]
        simp only [if_neg hshort, List.nil_append, node?_put hnonempty, if_true]
  · cases h
  · cases h
  · cases h

/-- An attempt that succeeds has a directory in front. -/
theorem directory_of_attempt_done
    (h : tree.attempt workingDirectory ⟨.root, front ++ [last]⟩ = .done after) :
    tree.node? front = some .directory := by
  have hplain : ".." ∉ front := fun hup => hpath.plain (List.mem_append_left _ hup)
  rw [attempt_concat hpath] at h
  split at h
  · rename_i place hwalk
    obtain ⟨hplace, hdirectory⟩ := walk_eq_ok hplain hwalk
    rwa [hplace, List.nil_append] at hdirectory
  · cases h
  · cases h
  · cases h

/-- An attempt finds nothing in front when the way there is not complete. -/
theorem walk_of_attempt_tooDeep
    (h : tree.attempt workingDirectory ⟨.root, front ++ [last]⟩ = .tooDeep) :
    tree.walk [] front = .error .missing := by
  rw [attempt_concat hpath] at h
  split at h
  · split at h
    · cases h
    · split at h <;> cases h
  · cases h
  · assumption
  · cases h

/-- With a directory in front, only a name that is too long or a file is refused. -/
theorem long_or_file_of_attempt_refused {fault : Fault} {place : Location}
    (hwalk : tree.walk [] front = .ok (place, .directory))
    (h : tree.attempt workingDirectory ⟨.root, front ++ [last]⟩ = .refused fault) :
    nameLimit < last.utf8ByteSize ∨
      ∃ content, tree.node? (front ++ [last]) = some (.file content) := by
  rw [attempt_concat hpath, hwalk] at h
  simp only at h
  split at h
  · rename_i hlong
    exact .inl hlong
  · split at h
    · cases h
    · rename_i content hfile
      exact .inr ⟨content, hfile⟩
    · cases h

end Attempt

/-! ### Room for the calls -/

/-- Behind a directory that is missing, more of them are than there is room for. -/
def TooNested (tree : FileTree) (room : Nat) (way : Location) : Prop :=
  ∃ front, front <+: way ∧ tree.node? front = none ∧ front.length + room < way.length

/-- A way that is longer by one needs room for one call more. -/
theorem tooNested_concat_iff {room : Nat} {front : List String} {last : String} :
    tree.TooNested (room + 1) (front ++ [last]) ↔ tree.TooNested room front := by
  constructor
  · rintro ⟨missed, hway, hnone, hlength⟩
    rw [List.length_append, List.length_singleton] at hlength
    rcases List.prefix_concat_iff.mp hway with rfl | hfront
    · rw [List.length_append, List.length_singleton] at hlength
      omega
    · exact ⟨missed, hfront, hnone, by omega⟩
  · rintro ⟨missed, hway, hnone, hlength⟩
    refine ⟨missed, hway.trans (List.prefix_append _ _), hnone, ?_⟩
    rw [List.length_append, List.length_singleton]
    omega

/-- Where a directory is missing on a way, nothing lies behind it. -/
theorem TooNested.node?_eq_none {room : Nat} (h : tree.TooNested room way) (hclosed : tree.Closed)
    {place : Location} (hway : way <+: place) : tree.node? place = none := by
  obtain ⟨missed, hbefore, hnone, -⟩ := h
  exact hclosed.node?_eq_none_of_prefix hnone (hbefore.trans hway)

/-- In a directory one more can be made, however little room there is. -/
theorem Closed.not_tooNested_concat (h : tree.Closed) {front : List String} (last : String)
    (hfront : tree.node? front = some .directory) (room : Nat) :
    ¬ tree.TooNested room (front ++ [last]) := by
  rintro ⟨missed, hway, hnone, hlength⟩
  rcases List.prefix_concat_iff.mp hway with rfl | hbefore
  · omega
  · rw [h.node?_eq_none_of_prefix hnone hbefore] at hfront
    cases hfront

/-! ### All directories -/

/-- What making the directories of a way comes to. -/
inductive Chained (tree : FileTree) (room : Nat) (way : Location) :
    EStateM.Result Fault FileTree Unit → Prop
  /-- The way leads to a directory now. -/
  | ready {places : List Location} {after : FileTree} (paved : Paved tree way places after)
      (leads : after.walk [] way = .ok (way, .directory))
      (reached : ¬ tree.TooNested room way) : Chained tree room way (.ok () after)
  /-- Directories stay behind only in front of a name that is too long. -/
  | stopped {fault : Fault} {places : List Location} {after : FileTree}
      (paved : Paved tree way places after)
      (reason : places ≠ [] → ∃ part ∈ way, nameLimit < part.utf8ByteSize) :
      Chained tree room way (.error fault after)

/-- In a tree, something that lies at a place is not missed on the way to it. -/
theorem Closed.node?_eq_none_of_walk (h : tree.Closed) {way : List String} (hplain : ".." ∉ way)
    (hwalk : tree.walk [] way = .error .missing) : tree.node? way = none := by
  cases hnode : tree.node? way with
  | none => rfl
  | some node =>
      refine absurd hwalk (walk_ne_missing hplain fun front hfront hnone => ?_)
      rw [h.node?_eq_none_of_prefix hnone hfront] at hnode
      cases hnode

/-- The attempt that follows when the directories in front were made. Where nothing was in the tree
at first, only a name that is too long can still refuse it. -/
theorem chained_second_attempt {front : List String} {last : String} {middle : FileTree}
    {room : Nat} (hpath : Admitted ⟨.root, front ++ [last]⟩)
    (hpaved : Paved tree front places middle)
    (hleads : middle.walk [] front = .ok (front, .directory))
    (hnone : tree.node? (front ++ [last]) = none) (hreached : ¬ tree.TooNested room front) :
    Chained tree (room + 1) (front ++ [last])
      ((match middle.attempt workingDirectory ⟨.root, front ++ [last]⟩ with
        | .done tree => set tree
        | .refused fault => throw fault
        | .tooDeep => throw (.missing (⟨.root, front ++ [last]⟩ : Path).text) : Change Unit)
        middle) := by
  cases hattempt : middle.attempt workingDirectory ⟨.root, front ++ [last]⟩ with
  | done after =>
      obtain ⟨more, hmore, hdone⟩ := paved_of_attempt_done hpath hpaved hattempt
      exact .ready hmore hdone (mt tooNested_concat_iff.mp hreached)
  | refused fault =>
      refine .stopped (hpaved.further (List.prefix_append _ _)) fun _ => ?_
      rcases long_or_file_of_attempt_refused hpath hleads hattempt with
        hlong | ⟨content, hfile⟩
      · exact ⟨last, by simp, hlong⟩
      · -- A file would have been there at first: only directories were added since.
        rw [hpaved.file_before hfile] at hnone
        cases hnone
  | tooDeep =>
      have hmissing := walk_of_attempt_tooDeep hpath hattempt
      rw [hleads] at hmissing
      cases hmissing

/-- Making directories adds directories at missing places on the way, and leaves some behind only
when a name on the way is too long. -/
theorem chained_makeChain (workingDirectory : Location) (hclosed : tree.Closed) (room : Nat)
    (reversed : List String) (hpath : Admitted ⟨.root, reversed.reverse⟩) :
    Chained tree room reversed.reverse (makeChain workingDirectory .root reversed room tree) := by
  induction reversed generalizing room with
  | nil =>
      refine .ready (.nothing hclosed []) rfl ?_
      rintro ⟨front, -, -, hlength⟩
      exact Nat.not_lt_zero _ hlength
  | cons last before ih =>
      rw [List.reverse_cons] at hpath ⊢
      rw [makeChain, get_bind_apply]
      simp only [List.reverse_cons]
      cases hfirst : tree.attempt workingDirectory ⟨.root, before.reverse ++ [last]⟩ with
      | done after =>
          obtain ⟨more, hpaved, hleads⟩ :=
            paved_of_attempt_done hpath (.nothing hclosed before.reverse) hfirst
          exact .ready hpaved hleads
            (hclosed.not_tooNested_concat last (directory_of_attempt_done hpath hfirst) room)
      | refused fault => exact .stopped (.nothing hclosed _) fun h => absurd rfl h
      | tooDeep =>
          cases room with
          | zero => exact .stopped (.nothing hclosed _) fun h => absurd rfl h
          | succ room =>
              -- Nothing was in front. The directories there come first, then a second attempt.
              show Chained tree _ _
                ((makeChain workingDirectory .root before room >>= fun _ => _) tree)
              rw [bind_apply]
              have hchain := ih room hpath.front
              generalize makeChain workingDirectory .root before room tree = result at hchain ⊢
              cases hchain with
              | stopped paved reason =>
                  refine .stopped (paved.further (List.prefix_append _ _)) fun hsome => ?_
                  obtain ⟨part, hpart, hlong⟩ := reason hsome
                  exact ⟨part, List.mem_append_left _ hpart, hlong⟩
              | @ready places middle paved leads reached =>
                  have hnone := hclosed.node?_eq_none_of_walk hpath.front.plain
                    (walk_of_attempt_tooDeep hpath hfirst)
                  exact chained_second_attempt hpath paved leads
                    (hclosed.node?_eq_none_of_prefix hnone (List.prefix_append _ _)) reached

/-- The same for the directories of a resolved path. -/
theorem chained_makeDirectories [Interpreter] (workingDirectory : Location)
    (hclosed : tree.Closed) {path : Path} (hpath : Admitted path) :
    Chained tree Interpreter.makeRoom path.parts
      (makeDirectories workingDirectory path tree) := by
  obtain ⟨anchor, parts⟩ := path
  obtain rfl : anchor = .root := hpath.anchor
  have hchain := chained_makeChain workingDirectory hclosed Interpreter.makeRoom parts.reverse
    (by rwa [List.reverse_reverse])
  rwa [List.reverse_reverse] at hchain

/-! ### A file -/

/-- What writing a file comes to. -/
inductive Written (tree : FileTree) (room : Nat) (path : Path) (content : ByteArray) :
    EStateM.Result Fault FileTree Unit → Prop
  /-- The file is there, with the directories that were missing on the way to it. -/
  | done {places : List Location} {middle : FileTree}
      (paved : Paved tree path.parent.parts places middle)
      (closed : (middle.put path.parts (.file content)).Closed)
      (holds : ∀ workingDirectory,
        (middle.put path.parts (.file content)).read workingDirectory path = .ok content)
      (reached : ¬ tree.TooNested room path.parent.parts) :
      Written tree room path content (.ok () (middle.put path.parts (.file content)))
  /-- No file was touched. Directories stay behind only in front of a name that is too long. -/
  | stopped {fault : Fault} {places : List Location} {after : FileTree}
      (paved : Paved tree path.parent.parts places after)
      (reason : places ≠ [] → ∃ part ∈ path.parts, nameLimit < part.utf8ByteSize) :
      Written tree room path content (.error fault after)

/-- What writing a file into a directory comes to, given by what lies at its place. -/
theorem overwrite_concat {front : List String} {last : String} {place : Location}
    (hpath : Admitted ⟨.root, front ++ [last]⟩)
    (hwalk : tree.walk [] front = .ok (place, .directory)) (content : ByteArray) :
    overwrite workingDirectory ⟨.root, front ++ [last]⟩ content tree
      = if nameLimit < last.utf8ByteSize then
          .error (.tooLong (⟨.root, front ++ [last]⟩ : Path).text) tree
        else if tree.node? (front ++ [last]) = some .directory then
          .error (.isADirectory (⟨.root, front ++ [last]⟩ : Path).text) tree
        else .ok () (tree.put (front ++ [last]) (.file content)) := by
  have hplace := (walk_eq_ok (fun hup => hpath.plain (List.mem_append_left _ hup)) hwalk).1
  rw [List.nil_append] at hplace
  subst hplace
  rw [overwrite, get_bind_apply]
  simp only [hpath.locate_eq, hpath.locate_parent_eq, walk_concat hpath.plain, hwalk,
    List.nil_append, List.getLast?_concat]
  by_cases hlong : nameLimit < last.utf8ByteSize
  · simp only [if_pos hlong]
    rfl
  · simp only [if_neg hlong]
    cases tree.node? (place ++ [last]) with
    | none => rfl
    | some node => cases node <;> rfl

/-- Nothing had to be made on the way to a directory. -/
theorem Closed.places_eq_nil_of_directory (h : tree.Closed) {front : List String} {last : String}
    (hpaved : Paved tree (⟨.root, front ++ [last]⟩ : Path).parent.parts places after)
    (hthere : after.node? (front ++ [last]) = some .directory) : places = [] := by
  have hfront : (⟨.root, front ++ [last]⟩ : Path).parent.parts = front := List.dropLast_concat
  rw [hfront] at hpaved
  refine List.eq_nil_iff_forall_not_mem.mpr fun place hplace => ?_
  obtain ⟨rest, hrest⟩ := hpaved.onTheWay place hplace
  rw [hpaved.added, node?_withDirectories] at hthere
  split at hthere
  · -- It was there before, so everything on the way was.
    rename_i node hbefore
    have hsome : tree.node? (place ++ (rest ++ [last])) ≠ none := by
      rw [← List.append_assoc, hrest, hbefore]
      exact nofun
    have hdirectory := h.directory_of_prefix hsome (by simp)
    rw [hpaved.missing place hplace] at hdirectory
    cases hdirectory
  · -- It was not added either, being farther than the way.
    split at hthere
    · rename_i hadded
      have := (hpaved.onTheWay _ hadded).length_le
      rw [List.length_append, List.length_singleton] at this
      omega
    · cases hthere

/-- Writing a file touches the file and adds directories on the way to it, and nothing else. When it
is refused, the file is as it was. -/
theorem written_write [Interpreter] (workingDirectory : Location) (hclosed : tree.Closed)
    {path : Path} (hpath : Admitted path) (content : ByteArray) :
    Written tree Interpreter.makeRoom path content (write workingDirectory path content tree) := by
  have hchain := chained_makeDirectories workingDirectory hclosed hpath.parent
  rw [write, bind_apply]
  generalize makeDirectories workingDirectory path.parent tree = result at hchain ⊢
  cases hchain with
  | stopped paved reason =>
      refine .stopped paved fun hsome => ?_
      obtain ⟨part, hpart, hlong⟩ := reason hsome
      exact ⟨part, (List.dropLast_sublist _).subset hpart, hlong⟩
  | @ready places middle paved leads reached =>
      obtain ⟨anchor, parts⟩ := path
      obtain rfl : anchor = .root := hpath.anchor
      rcases List.eq_nil_or_concat parts with rfl | ⟨front, last, rfl⟩
      · -- The root cannot be a file, and nothing had to be made on the way to it.
        have hnone : places = [] := by
          refine List.eq_nil_iff_forall_not_mem.mpr fun place hplace => ?_
          have hroot := List.prefix_nil.mp (paved.onTheWay place hplace)
          have := paved.missing place hplace
          rw [hroot] at this
          cases this
        have hrefused : overwrite workingDirectory ⟨.root, []⟩ content middle
            = .error (.isADirectory (⟨.root, []⟩ : Path).text) middle := by
          rw [overwrite, get_bind_apply]
          simp only [hpath.locate_eq]
          rfl
        show Written tree _ _ content (overwrite workingDirectory ⟨.root, []⟩ content middle)
        rw [hrefused]
        exact .stopped paved fun hsome => absurd hnone hsome
      · rw [List.concat_eq_append] at hpath leads paved reached ⊢
        have hfront : (⟨.root, front ++ [last]⟩ : Path).parent.parts = front :=
          List.dropLast_concat
        rw [hfront] at leads
        have hnonempty : front ++ [last] ≠ [] := by simp
        have hplain : ".." ∉ front := fun hup => hpath.plain (List.mem_append_left _ hup)
        have hdirectory := (walk_eq_ok hplain leads).2
        show Written tree _ _ content
          (overwrite workingDirectory ⟨.root, front ++ [last]⟩ content middle)
        rw [overwrite_concat hpath leads]
        split
        · rename_i hlong
          exact .stopped paved fun _ => ⟨last, by simp, hlong⟩
        · rename_i hshort
          split
          · rename_i hthere
            exact .stopped paved fun hsome =>
              absurd (hclosed.places_eq_nil_of_directory paved hthere) hsome
          · rename_i hfree
            refine .done paved
              (paved.closed.put hnonempty (by rwa [List.dropLast_concat])
                fun h => absurd h hfree) (fun directory => ?_) reached
            rw [FileTree.read, hpath.locate_eq]
            simp only [walk_concat hpath.plain, walk_put_concat hplain, leads, if_neg hshort,
              List.nil_append, node?_put hnonempty, if_true]

/-! ### Other files -/

/-- What is known when a file is read: everything on the way to it is a directory. -/
theorem of_read {path : Path} {content : ByteArray} (hpath : Admitted path)
    (h : tree.read workingDirectory path = .ok content) :
    tree.walk [] path.parts = .ok (path.parts, .file content) ∧
      tree.node? path.parts = some (.file content) := by
  rw [FileTree.read, hpath.locate_eq] at h
  split at h
  · rename_i place found hwalk
    cases h
    obtain ⟨hplace, hnode⟩ := walk_eq_ok hpath.plain hwalk
    rw [List.nil_append] at hplace
    subst hplace
    exact ⟨hwalk, hnode⟩
  · cases h
  · cases h

/-- A file that was written hides no other file, and is on the way to none: every other file is read
as before. -/
theorem Written.read_of_ne {room : Nat} {path other : Path} {content kept : ByteArray}
    (h : Written tree room path content (.ok () after)) (hclosed : tree.Closed)
    (hpath : Admitted path) (hother : Admitted other) (hne : other ≠ path)
    (hread : tree.read workingDirectory other = .ok kept) :
    after.read workingDirectory other = .ok kept := by
  obtain ⟨hwalk, hnode⟩ := of_read hother hread
  have hparts : other.parts ≠ path.parts := fun heq =>
    hne (hother.eq_of_parts hpath.toIsResolved heq)
  cases h with
  | @done places middle paved closed holds reached =>
      have hplace : path.parts ≠ [] := by
        intro hroot
        have hwritten := (of_read hpath (holds workingDirectory)).2
        rw [hroot, node?_nil] at hwritten
        cases hwritten
      have hsome : (middle.put path.parts (.file content)).node? other.parts
          = some (.file kept) := by
        rw [node?_put hplace, if_neg hparts, paved.node?_of_some hnode]
      have hsame : (middle.put path.parts (.file content)).walk [] other.parts
          = tree.walk [] other.parts := by
        refine walk_congr hother.plain ?_
        rintro front ⟨back, hback⟩
        rw [List.nil_append]
        by_cases hend : back = []
        · have hfront : front = other.parts := by rw [← hback, hend, List.append_nil]
          rw [hfront, hsome, hnode]
        · -- In front of a file there are directories, before and after.
          have hbefore : tree.node? front = some .directory :=
            hclosed.directory_of_prefix (by rw [hback, hnode]; exact nofun) hend
          have hafter : (middle.put path.parts (.file content)).node? front = some .directory :=
            closed.directory_of_prefix (by rw [hback, hsome]; exact nofun) hend
          rw [hbefore, hafter]
      rw [FileTree.read, hother.locate_eq, hsame, hwalk]

end HeaderBind.FileTree
